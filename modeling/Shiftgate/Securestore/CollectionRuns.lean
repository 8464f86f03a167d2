import Shiftgate.Library.Runs
import Shiftgate.Securestore.CollectionSteps
import Shiftgate.Securestore.KeyRuns

/-! Runs of a collection. What a re-open finds is what the mutations that returned success make of
an empty map, in order, with the one that a crash cut off made or not. -/

namespace Shiftgate.Securestore.Collection

open Library List Option

variable {T : Type} {env : Env T}

inductive Call (T : Type) where
  | put (id : String) (value : T)
  | update (id : String) (f : T → Except String T)
  | delete (id : String)

namespace Call

def program (env : Env T) (ev : AppendEvents) : Call T → CollProgram T Unit
  | put id value => Collection.put env ev id value
  | update id f => Collection.update env ev id f
  | delete id => Collection.delete env ev id

def apply : Call T → Items T → Items T
  | put id value, items => items.set id (some value)
  | update id f, items =>
    match items id with
    | none => items
    | some current =>
      match f current with
      | .ok next => items.set id (some next)
      | .error _ => items
  | delete id, items => items.set id none

def mutation (items : Items T) : Call T → Option (Mutation T)
  | put id value => if id = "" then none else some ⟨id, some value⟩
  | update id f => (items id).bind fun current =>
    (f current).toOption.map fun next => ⟨id, some next⟩
  | delete id => (items id).map fun _ => ⟨id, none⟩

end Call

open Call

inductive Ending where
  | ok
  | error
  | crashed
  deriving DecidableEq

/-- The calls so far, the last one first, with how each ended. -/
structure CollRun (T : Type) where
  coll : Coll T
  alive : Bool
  history : List (Call T × Ending)

inductive CollAction (T : Type) where
  | openFiles (f : OpenFaults)
  | call (call : Call T) (ev : AppendEvents)
  | stop

namespace CollRun

def init : CollRun T := ⟨.fresh ⟨none, none⟩, false, []⟩

def afterOpen (r : CollRun T) : Outcome (Coll T) CollError Unit → CollRun T
  | .ok _ c => ⟨c, true, r.history⟩
  | .error _ c => ⟨c, false, r.history⟩
  | .crash c => ⟨c, false, r.history⟩

def afterCall (r : CollRun T) (call : Call T) : Outcome (Coll T) CollError Unit → CollRun T
  | .ok _ c => ⟨c, true, (call, .ok) :: r.history⟩
  | .error _ c => ⟨c, true, (call, .error) :: r.history⟩
  | .crash c => ⟨c, false, (call, .crashed) :: r.history⟩

def step (env : Env T) (r : CollRun T) : CollAction T → Option (CollRun T)
  | .openFiles f => some (r.afterOpen (openCollection env f r.coll))
  | .call call ev =>
    if r.alive then some (r.afterCall call (call.program env ev r.coll)) else none
  | .stop => some { r with alive := false }

end CollRun

/-- The calls that returned success are made in order, those that returned an error are not, and one
that a crash cut off may be. -/
def Explains : List (Call T × Ending) → Items T → Prop
  | [], items => items = fun _ => none
  | (call, .ok) :: before, items => ∃ items', Explains before items' ∧ items = call.apply items'
  | (_, .error) :: before, items => Explains before items
  | (call, .crashed) :: before, items =>
    ∃ items', Explains before items' ∧ (items = items' ∨ items = call.apply items')

def WritesCleanly (env : Env T) (r : CollRun T) : CollAction T → Prop
  | .call call ev => ∀ m ∈ call.mutation r.coll.data.items, Clean env r.coll ev m
  | _ => True

variable {items : Items T} {id : String} {m : Mutation T} {call : Call T} {s : Coll T}

theorem Call.mutation_update {f : T → Except String T}
    (h : (update id f).mutation items = some m) :
    ∃ current next, items id = some current ∧ f current = .ok next ∧ m = ⟨id, some next⟩ := by
  rw [mutation, bind_eq_some_iff] at h
  obtain ⟨current, hcurrent, hm⟩ := h
  obtain ⟨next, hnext, rfl⟩ := map_eq_some_iff.mp hm
  refine ⟨current, next, hcurrent, ?_, rfl⟩
  cases hfc : f current <;> simp [hfc, Except.toOption] at hnext
  rw [hnext]

theorem Call.mutation_apply (h : call.mutation items = some m) (hunnamed : items "" = none) :
    call.apply items = m.apply items ∧ m.id ≠ "" := by
  cases call with
  | put id value =>
    rw [mutation, ite_none_left_eq_some] at h
    obtain ⟨hid, hm⟩ := h
    cases hm
    exact ⟨rfl, hid⟩
  | update id f =>
    obtain ⟨current, next, hcurrent, hf, rfl⟩ := mutation_update h
    refine ⟨by simp [apply, hcurrent, hf, Mutation.apply], ?_⟩
    rintro rfl
    simp [hunnamed] at hcurrent
  | delete id =>
    obtain ⟨current, hcurrent, rfl⟩ := map_eq_some_iff.mp h
    refine ⟨rfl, ?_⟩
    rintro rfl
    simp [hunnamed] at hcurrent

theorem Call.program_mutation (ev : AppendEvents) (h : call.mutation s.data.items = some m) :
    call.program env ev s = mutate env ev m.op m.id m.value s := by
  cases call with
  | put id value =>
    rw [mutation, ite_none_left_eq_some] at h
    obtain ⟨hid, hm⟩ := h
    cases hm
    simp [program, Collection.put, hid, Mutation.op]
  | update id f =>
    obtain ⟨current, next, hcurrent, hf, rfl⟩ := mutation_update h
    simp [program, Collection.update, hcurrent, hf, Mutation.op]
  | delete id =>
    obtain ⟨current, hcurrent, rfl⟩ := map_eq_some_iff.mp h
    simp [program, Collection.delete, hcurrent, Mutation.op]

theorem Call.program_refused (ev : AppendEvents) (h : call.mutation s.data.items = none) :
    ∃ e, call.program env ev s = .error e s := by
  cases call with
  | put id value =>
    have hid : id = "" := by
      by_contra hne
      simp [mutation, hne] at h
    exact ⟨.recordIDRequired, by simp [program, Collection.put, hid, Program.throw]⟩
  | update id f =>
    rw [mutation, bind_eq_none_iff] at h
    cases hcurrent : s.data.items id with
    | none =>
      exact ⟨.notFound, by simp [program, Collection.update, hcurrent, Program.throw]⟩
    | some current =>
      have hnext := map_eq_none_iff.mp (h current hcurrent)
      cases hf : f current with
      | ok next => simp [hf, Except.toOption] at hnext
      | error message =>
        exact ⟨.update message,
          by simp [program, Collection.update, hcurrent, hf, Program.throw]⟩
  | delete id =>
    have hcurrent := map_eq_none_iff.mp h
    exact ⟨.notFound, by simp [program, Collection.delete, hcurrent, Program.throw]⟩

/-- Some map explains the history, a re-open finds it, and an open collection has it in memory. -/
def CollRun.Sound (env : Env T) (r : CollRun T) : Prop :=
  ∃ items, Explains r.history items ∧ OnDisk env r.coll.files items ∧
    (r.alive = true → Live env r.coll items)

namespace CollRun.Sound

variable {r : CollRun T}

theorem afterOpen (h : r.Sound env) (f : OpenFaults) :
    (r.afterOpen (openCollection env f r.coll)).Sound env := by
  obtain ⟨items, hexplains, hdisk, -⟩ := h
  have hopen : (openCollection env f r.coll).Meets (opened env f items) :=
    openCollection_opened f hdisk
  cases ho : openCollection env f r.coll with
  | ok _ c =>
    rw [ho] at hopen
    exact ⟨items, hexplains, hopen.1.onDisk, fun _ => hopen⟩
  | error e c | crash c =>
    rw [ho] at hopen
    exact ⟨items, hexplains, hopen.2, by simp [CollRun.afterOpen]⟩

theorem afterCall (h : r.Sound env) (halive : r.alive = true) (call : Call T) (ev : AppendEvents)
    (hclean : WritesCleanly env r (.call call ev)) :
    (r.afterCall call (call.program env ev r.coll)).Sound env := by
  obtain ⟨items, hexplains, -, hlive⟩ := h
  have hlive := hlive halive
  have hunnamed := hlive.1.unnamed
  cases hm : call.mutation r.coll.data.items with
  | none =>
    obtain ⟨e, he⟩ : ∃ e, call.program env ev r.coll = .error e r.coll :=
      program_refused ev hm
    rw [he]
    exact ⟨items, hexplains, hlive.1.onDisk, fun _ => hlive⟩
  | some m =>
    rw [program_mutation ev hm]
    have hm' : call.mutation items = some m := hlive.2 ▸ hm
    obtain ⟨happly, hnamed⟩ := mutation_apply hm' hunnamed
    have hends : (mutate env ev m.op m.id m.value r.coll).Meets (mutated env m items) :=
      mutate_mutated hlive hnamed ev (hclean m hm)
    cases ho : mutate env ev m.op m.id m.value r.coll with
    | ok _ c =>
      rw [ho] at hends
      exact ⟨m.apply items, ⟨items, hexplains, happly.symm⟩, hends.1.onDisk, fun _ => hends⟩
    | error e c =>
      rw [ho] at hends
      exact ⟨items, hexplains, hends.1.onDisk, fun _ => hends⟩
    | crash c =>
      rw [ho] at hends
      rcases hends with hends | hends
      · exact ⟨items, ⟨items, hexplains, .inl rfl⟩, hends, by simp [CollRun.afterCall]⟩
      · exact ⟨m.apply items, ⟨items, hexplains, .inr happly.symm⟩, hends,
          by simp [CollRun.afterCall]⟩

theorem step {t : CollRun T} {a : CollAction T} (h : r.Sound env)
    (hclean : WritesCleanly env r a) (ht : r.step env a = some t) : t.Sound env := by
  cases a with
  | openFiles f =>
    cases ht
    exact h.afterOpen f
  | call call ev =>
    rw [CollRun.step, ite_none_right_eq_some] at ht
    obtain ⟨halive, ht⟩ := ht
    cases ht
    exact h.afterCall halive call ev hclean
  | stop =>
    cases ht
    obtain ⟨items, hexplains, hdisk, -⟩ := h
    exact ⟨items, hexplains, hdisk, by simp⟩

end CollRun.Sound

def CollRun.Reopens (env : Env T) (r : CollRun T) (items : Items T) : Prop :=
  (∀ f c, openCollection env f r.coll = .ok () c → c.data.items = items) ∧
    ∃ c, openCollection env {} r.coll = .ok () c

theorem OnDisk.reopens {r : CollRun T} (h : OnDisk env r.coll.files items) :
    r.Reopens env items := by
  have hopen : ∀ f, (openCollection env f r.coll).Meets (opened env f items) :=
    fun f => openCollection_opened f h
  refine ⟨fun f c hc => ?_, ?_⟩
  · have := hopen f
    rw [hc] at this
    exact this.2
  · have := hopen {}
    cases ho : openCollection env {} r.coll with
    | ok _ c => exact ⟨c, rfl⟩
    | error e c =>
      rw [ho] at this
      simp [Outcome.Meets, opened] at this
    | crash c =>
      rw [ho] at this
      simp [Outcome.Meets, opened, OpenFaults.stops, TruncateFaults.stops] at this

def unaryBytes (n : Nat) : Bytes := List.replicate n 1

def JournalEntry.fields (entry : JournalEntry) : List (List Nat) :=
  [[entry.formatVersion], [entry.keyVersion.toNat], [entry.revision.toNat],
    entry.op.toList.map Char.toNat, entry.id.toList.map Char.toNat,
    entry.nonce.map UInt8.toNat, entry.ciphertext.map UInt8.toNat]

/-- Numbers in unary, each ended by the byte 2, and fields ended by the byte 3. -/
def marshalFields (fields : List (List Nat)) : Bytes :=
  terminated 3 (fields.map fun field => terminated 2 (field.map unaryBytes))

def unmarshalFields (bytes : Bytes) : List (List Nat) :=
  (bytes.splitOn 3).dropLast.map fun field => (field.splitOn 2).dropLast.map List.length

def unmarshalEntry (bytes : Bytes) : Option JournalEntry :=
  match unmarshalFields bytes with
  | [[formatVersion], [keyVersion], [revision], op, id, nonce, ciphertext] =>
    some ⟨formatVersion, .ofNat keyVersion, .ofNat revision, .ofList (op.map Char.ofNat),
      .ofList (id.map Char.ofNat), nonce.map UInt8.ofNat, ciphertext.map UInt8.ofNat⟩
  | _ => none

theorem mem_terminated {sep b : UInt8} {lines : List Bytes} (h : b ∈ terminated sep lines) :
    b = sep ∨ ∃ line ∈ lines, b ∈ line := by
  simp only [terminated, mem_flatMap, mem_append, mem_singleton] at h
  obtain ⟨line, hline, hb | hb⟩ := h
  · exact .inr ⟨line, hline, hb⟩
  · exact .inl hb

theorem mem_marshalField {b : UInt8} {field : List Nat}
    (h : b ∈ terminated 2 (field.map unaryBytes)) : b = 1 ∨ b = 2 := by
  rcases mem_terminated h with rfl | ⟨line, hline, hb⟩
  · exact .inr rfl
  · obtain ⟨n, -, rfl⟩ := List.mem_map.mp hline
    exact .inl (eq_of_mem_replicate hb)

theorem unmarshalFields_marshalFields (fields : List (List Nat)) :
    unmarshalFields (marshalFields fields) = fields := by
  have hfield : ∀ field : List Nat,
      ((terminated 2 (field.map unaryBytes)).splitOn 2).dropLast.map List.length = field := by
    intro field
    have hnumbers : ∀ line ∈ field.map unaryBytes, (2 : UInt8) ∉ line := by
      intro line hline h2
      obtain ⟨n, -, rfl⟩ := List.mem_map.mp hline
      exact absurd (eq_of_mem_replicate h2) (by decide)
    have hsplit := splitOn_terminated hnumbers (not_mem_nil)
    rw [append_nil] at hsplit
    rw [hsplit, dropLast_concat, List.map_map]
    simp [Function.comp_def, unaryBytes]
  have hlines : ∀ line ∈ fields.map fun field => terminated 2 (field.map unaryBytes),
      (3 : UInt8) ∉ line := by
    intro line hline h3
    obtain ⟨field, -, rfl⟩ := List.mem_map.mp hline
    rcases mem_marshalField h3 with h | h <;> exact absurd h (by decide)
  have hsplit := splitOn_terminated hlines (not_mem_nil)
  rw [append_nil] at hsplit
  rw [unmarshalFields, marshalFields, hsplit, dropLast_concat, List.map_map]
  simp only [Function.comp_def, hfield, List.map_id']

def byteEnv : Env UInt8 where
  primitives := tagPrimitives
  label := "bytes"
  workloadKey version := if version = 1 then some (sampleKey 0) else none
  marshalEntry entry := marshalFields entry.fields
  unmarshalEntry := unmarshalEntry
  marshalValue value := [value]
  unmarshalValue bytes := bytes.head?
  unmarshalEntry_marshalEntry entry := by
    rw [unmarshalEntry, unmarshalFields_marshalFields]
    simp [JournalEntry.fields, Function.comp_def]
  marshalEntry_ne_nil entry := by simp [marshalFields, JournalEntry.fields]
  newline_not_mem entry := by
    intro h
    rcases mem_terminated h with h | ⟨line, hline, hb⟩
    · exact absurd h (by decide)
    · obtain ⟨field, -, rfl⟩ := List.mem_map.mp hline
      rcases mem_marshalField hb with h | h <;> exact absurd h (by decide)
  unmarshalValue_marshalValue value := rfl

def quietEvents : AppendEvents := { keyVersion := 1, nonce := ⟨List.replicate nonceSize 0, rfl⟩ }

instance (c : Coll T) (ev : AppendEvents) : Decidable (Journals c ev) :=
  inferInstanceAs (Decidable (_ ∧ _))

instance (c : Coll T) : Decidable (Terminated c) :=
  inferInstanceAs (Decidable (∀ b ∈ c.writtenJournal.getLast?, b = newline))

instance (env : Env T) (c : Coll T) (ev : AppendEvents) (m : Mutation T) :
    Decidable (LeavesLine env c ev m) :=
  inferInstanceAs (Decidable (∃ line ∈ _, _ ∧ _ ∧ landedPart ev line = line))

instance (env : Env T) (c : Coll T) (ev : AppendEvents) (m : Mutation T) :
    Decidable (Clean env c ev m) :=
  inferInstanceAs (Decidable (_ ∧ (_ → _) ∧ (_ → _ ∧ ¬_)))

instance (env : Env T) (r : CollRun T) : ∀ a, Decidable (WritesCleanly env r a)
  | .call call ev =>
    inferInstanceAs (Decidable (∀ m ∈ call.mutation r.coll.data.items, Clean env r.coll ev m))
  | .openFiles _ => isTrue trivial
  | .stop => isTrue trivial

def tornRun : List (CollAction UInt8) :=
  [.openFiles {}, .call (.put "a" 1) quietEvents, .call (.put "b" 2) quietEvents,
    .call (.put "c" 3) { quietEvents with write := .crash, landed := 5 }, .openFiles {},
    .call (.update "b" fun b => .ok (b + 1)) { quietEvents with sync := .fail },
    .call (.update "b" fun b => .ok (b + 4)) quietEvents, .call (.delete "a") quietEvents, .stop]

def settled : List (Call T × Ending) → Items T
  | [] => fun _ => none
  | (call, .ok) :: before => call.apply (settled before)
  | (_, _) :: before => settled before

theorem Explains.eq_settled {history : List (Call T × Ending)} (h : Explains history items)
    (hc : ∀ e ∈ history, e.2 ≠ .crashed) : items = settled history := by
  induction history generalizing items with
  | nil => exact h
  | cons e before ih =>
    obtain ⟨call, ending⟩ := e
    have hbefore : ∀ e ∈ before, e.2 ≠ .crashed := fun e he => hc e (mem_cons_of_mem _ he)
    cases ending with
    | ok =>
      obtain ⟨items', hitems', rfl⟩ := h
      rw [ih hitems' hbefore]
      rfl
    | error => exact ih h hbefore
    | crashed => exact absurd rfl (hc _ mem_cons_self)

def misread (id : String) (r : CollRun UInt8) : Bool :=
  r.history.all (fun e => e.2 ≠ .crashed) &&
    match openCollection byteEnv {} r.coll with
    | .ok _ c => c.data.items id ≠ settled r.history id
    | _ => false

theorem misread_unexplained {r : CollRun UInt8} (h : misread id r = true) :
    ∃ c, openCollection byteEnv {} r.coll = .ok () c ∧ ¬Explains r.history c.data.items := by
  simp only [misread, Bool.and_eq_true, List.all_eq_true, decide_eq_true_eq] at h
  obtain ⟨hcrash, hread⟩ := h
  split at hread
  · rename_i c hc
    refine ⟨c, hc, fun hexplains => ?_⟩
    rw [hexplains.eq_settled hcrash] at hread
    simp at hread
  · simp at hread

def landedErrorRun : List (CollAction UInt8) :=
  [.openFiles {}, .call (.put "a" 7) { quietEvents with persist := { syncDirectory := .fail } }]

def mergedLineRun : List (CollAction UInt8) :=
  [.openFiles {}, .call (.put "a" 1) quietEvents, .call (.put "b" 2)
      { quietEvents with write := .fail, landed := 1, truncate := { openFile := .fail } },
    .call (.put "c" 3) quietEvents]

end Shiftgate.Securestore.Collection
