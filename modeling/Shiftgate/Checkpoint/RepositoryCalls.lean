import Shiftgate.Checkpoint.Repository
import Shiftgate.Library.Relying

/-! Calls of the repository that run at once. Nothing locks the index and the files together; under
`careful` every entry of the index has its manifest file in every state. -/

namespace Shiftgate.Checkpoint.Repository

open Library Securestore Chunkstore Checkpoint.Manifests Option Thread FileTable

inductive Op where
  | save (m : CheckpointManifest)
  | load (id : String)
  | list (workloadID : String)
  | delete (id : String)
  deriving DecidableEq

inductive Answer where
  | saved (result : Except RepositoryError Unit)
  | loaded (result : Except RepositoryError CheckpointManifest)
  | listed (summaries : List Summary)
  | deleted (result : Except RepositoryError Unit)
  deriving DecidableEq

section Calls

variable (c : Codec) (keys : KeySource)

def program : Op → Caller Answer
  | .save m => do return .saved (← save c keys m)
  | .load id => do return .loaded (← load c keys id)
  | .list workloadID => do return .listed (← list workloadID)
  | .delete id => do return .deleted (← delete id)

/-- What a crash leaves is what is on disk, and that is all there is. -/
def service : Service Cabinet Op Answer Choice Reply where
  program := program c keys
  serve s _ command x := some (serve keys s x command)
  fails x := x.happens ≠ .yes
  restart := id

abbrev Calls := Pool Cabinet Op Answer Reply

def start : Calls := .initial ⟨.empty, .empty⟩

def Op.changes : Op → Option String
  | .save m => some m.id
  | .load _ => none
  | .list _ => none
  | .delete id => some id

def writing : Option Command → Bool
  | some (.writeManifest _ _) => true
  | some (.indexPut _ _) => true
  | some (.removeManifest _) => true
  | _ => false

def removed : Caller Answer → Bool
  | .ask (.removeDirectory _) _ => true
  | .done (.deleted (.ok ())) => true
  | _ => false

def drawn (m : CheckpointManifest) (x : Choice) : Bool :=
  match keys m.workload.id x.version with
  | .error _ => true
  | .ok key =>
    match sealManifest c ⟨x.version, key, x.nonce⟩ m with
    | .error _ => true
    | .ok e =>
      x.version ≠ 0 && decide ((c.encodeEnvelope e).length ≤ maxEncryptedManifestBytes)

/-- A `Save` looks for its id while no other `Save` of the id is storing a manifest, and the removal
of a directory does not fail. -/
def admitted (p : Calls) (x : Choice) : Op → Command → Bool
  | .save m, .workloadKey _ => x.happens ≠ .yes || drawn c keys m x
  | .save m, .indexGet _ => p.calls.all fun call =>
      call.op.changes ≠ some m.id || !writing (call.thread.bind Thread.asks)
  | _, .removeDirectory _ => x.happens = .yes
  | _, _ => true

/-- A `Delete` is called while no `Save` or `Delete` of its id is under way, and a `Save` while no
`Delete` is; no crash comes between a `Delete`'s removal of the entry and its return. -/
def careful (p : Calls) : Move Op Choice → Bool
  | .call (.save m) => p.calls.all fun call => call.thread.isNone || call.op ≠ .delete m.id
  | .call (.delete id) => p.calls.all fun call => call.thread.isNone || call.op.changes ≠ some id
  | .call (.load _) => true
  | .call (.list _) => true
  | .advance n x =>
    match p.op n, p.asks n with
    | some op, some command => admitted c keys p x op command
    | _, _ => true
  | .finish _ => true
  | .crash => p.calls.all fun call => !call.thread.any removed

def Untouched (id : String) (s t : Cabinet) : Prop :=
  t.index.get id = s.index.get id ∧ t.manifests.get id = s.manifests.get id

def Retained (id : String) (s t : Cabinet) : Prop :=
  s.index.get id ≠ none → Untouched id s t

theorem Untouched.refl (id : String) (s : Cabinet) : Untouched id s s := ⟨rfl, rfl⟩

theorem Untouched.trans {id : String} {s t u : Cabinet} (h : Untouched id s t)
    (h' : Untouched id t u) : Untouched id s u := ⟨h'.1.trans h.1, h'.2.trans h.2⟩

theorem Retained.trans {id : String} {s t u : Cabinet} (h : Retained id s t)
    (h' : Retained id t u) : Retained id s u := fun hs =>
  (h hs).trans (h' ((h hs).1 ▸ hs))

def Consistent (s : Cabinet) : Prop :=
  ∀ id summary, s.index.get id = some summary → ∃ m v encoded, summary = summarize m v ∧
    s.manifests.get id = some encoded ∧ checkLoaded c keys id summary encoded = .ok m

def Holds (m : CheckpointManifest) (s : Cabinet) : Prop :=
  ∃ v encoded m', s.index.get m.id = some (summarize m v) ∧ s.manifests.get m.id = some encoded ∧
    checkLoaded c keys m.id (summarize m v) encoded = .ok m' ∧ contents m' = contents m

def Relies : Op → Option Command → Cabinet → Cabinet → Prop
  | .save m, command => if writing command then Untouched m.id else Retained m.id
  | .delete id, _ => Untouched id
  | .load _, _ => fun _ _ => True
  | .list _, _ => fun _ _ => True

structure Does (op : Op) (command : Command) (next : Caller Answer) (s t : Cabinet) : Prop where
  others : ∀ id, op.changes ≠ some id → Untouched id s t
  retained : ∀ m, op = .save m → Retained m.id s t
  waiting : ∀ m, op = .save m → writing (some command) = false → t = s
  begins : ∀ m, op = .save m → writing next.asks = true →
    writing (some command) = true ∨ command = .indexGet m.id
  deletes : ∀ id, op = .delete id →
    removed next = true ∨ t = s ∧ ∀ id, command ≠ .removeDirectory id

def Allows (op : Op) (command : Command) (x : Choice) : Prop :=
  (∀ m id, op = .save m → command = .workloadKey id → x.happens = .yes → drawn c keys m x = true) ∧
    ∀ id, command = .removeDirectory id → x.happens = .yes

def contract : Contract (service c keys) where
  Inv := Consistent c keys
  allowed := Allows c keys
  rely := Relies
  does := Does
  rely_trans {op command s t u} h h' := by
    cases op with
    | save m =>
      simp only [Relies] at h h' ⊢
      split <;> simp_all only [if_true]
      · exact h.trans h'
      · exact h.trans h'
    | delete id => exact h.trans h'
    | load id => trivial
    | list workloadID => trivial
  restart_keeps _ h := h

def ensured : Op → Cabinet → Answer → Prop
  | .save m, s, a => a = .saved (.ok ()) → Holds c keys m s
  | .load _, _, _ => True
  | .list _, _, _ => True
  | .delete _, _, _ => True

end Calls

def Command.touches : Command → Option String
  | .indexPut id _ => some id
  | .indexDelete id => some id
  | .writeManifest id _ => some id
  | .removeManifest id => some id
  | .removeDirectory id => some id
  | .workloadKey _ => none
  | .indexGet _ => none
  | .indexList => none
  | .readManifest _ => none

section Accesses

variable {c : Codec} {keys : KeySource} {s t : Cabinet} {x : Choice} {m : CheckpointManifest}
  {command : Command} {next : Caller Answer} {id : String} {n : Nat} {op : Op}

theorem serve_untouched (h : command.touches ≠ some id) :
    Untouched id s (serve keys s x command).1 := by
  cases command with
  | workloadKey _ | indexGet _ | indexList | readManifest _ => exact .refl ..
  | indexPut other summary =>
    have hne : id ≠ other := fun heq => h (congrArg some heq.symm)
    simp only [serve]
    split
    · exact ⟨get_set_other _ _ hne, rfl⟩
    · exact .refl ..
  | indexDelete other =>
    have hne : id ≠ other := fun heq => h (congrArg some heq.symm)
    simp only [serve]
    split
    · exact ⟨by simp [get_erase, hne], rfl⟩
    · exact .refl ..
  | writeManifest other encoded =>
    have hne : id ≠ other := fun heq => h (congrArg some heq.symm)
    simp only [serve]
    split
    · exact .refl ..
    · exact ⟨rfl, get_set_other _ _ hne⟩
  | removeManifest other | removeDirectory other =>
    have hne : id ≠ other := fun heq => h (congrArg some heq.symm)
    simp only [serve]
    split
    · exact .refl ..
    · exact ⟨rfl, by simp [get_erase, hne]⟩

theorem Consistent.serve (h : Consistent c keys s) (htouches : command.touches = some id)
    (hid : ∀ summary, (Repository.serve keys s x command).1.index.get id = some summary →
      ∃ m v encoded, summary = summarize m v ∧
        (Repository.serve keys s x command).1.manifests.get id = some encoded ∧
        checkLoaded c keys id summary encoded = .ok m) :
    Consistent c keys (Repository.serve keys s x command).1 := by
  intro other summary hget
  by_cases heq : other = id
  · subst heq
    exact hid summary hget
  · have hother : Untouched other s (Repository.serve keys s x command).1 := by
      apply serve_untouched
      rw [htouches]
      exact fun h => heq (some.inj h).symm
    rw [hother.1] at hget
    rw [hother.2]
    exact h other summary hget

theorem Consistent.serve_of_none (h : Consistent c keys s) (htouches : command.touches = some id)
    (hid : (Repository.serve keys s x command).1.index.get id = none) :
    Consistent c keys (Repository.serve keys s x command).1 :=
  h.serve htouches fun summary hget => by
    rw [hid] at hget
    cases hget

theorem ensures_ask {Q : Cabinet → Answer → Prop} {rest : Reply command → Caller Answer}
    (h : ∀ s' x, Relies op (some command) s s' → Consistent c keys s' → Allows c keys op command x →
      Consistent c keys (serve keys s' x command).1 ∧
        Does op command (rest (serve keys s' x command).2) s' (serve keys s' x command).1 ∧
        (contract c keys).Ensures n op Q (rest (serve keys s' x command).2)
          (serve keys s' x command).1) :
    (contract c keys).Ensures n op Q (.ask command rest) s := by
  intro s' x t r hrely hinv hallowed hserve
  have hnext := h s' x hrely hinv hallowed
  rw [show serve keys s' x command = (t, r) from some.inj hserve] at hnext
  exact hnext

section

variable (hcommand : ∀ id, command ≠ .removeDirectory id)

include hcommand

theorem Does.idle
    (hbegins : ∀ m, op = .save m → writing next.asks = true → command = .indexGet m.id) :
    Does op command next s s where
  others _ _ := .refl ..
  retained _ _ _ := .refl ..
  waiting _ _ _ := rfl
  begins m hop hwriting := .inr (hbegins m hop hwriting)
  deletes _ _ := .inr ⟨rfl, hcommand⟩

theorem Does.ends (hnext : writing next.asks = false) : Does op command next s s :=
  .idle hcommand fun _ _ hwriting => absurd hwriting (by rw [hnext]; exact Bool.false_ne_true)

theorem Does.reads (hop : ∀ m, op ≠ .save m) : Does op command next s s :=
  .idle hcommand fun m h => absurd h (hop m)

end

theorem Does.writes (htouches : command.touches = some m.id)
    (hwriting : writing (some command) = true) (hindex : s.index.get m.id = none) :
    Does (.save m) command next s (serve keys s x command).1 where
  others id hid := serve_untouched (by rw [htouches]; exact hid)
  retained m' hop hsome := by
    cases hop
    exact absurd hindex hsome
  waiting _ _ hfalse := by
    rw [hwriting] at hfalse
    cases hfalse
  begins _ _ _ := .inl hwriting
  deletes id hop := nomatch hop

theorem Does.deletes_touched (htouches : command.touches = some id)
    (hnext : removed next = true) :
    Does (.delete id) command next s (serve keys s x command).1 where
  others other hother := serve_untouched (by rw [htouches]; exact hother)
  retained _ hop := by cases hop
  waiting _ hop := by cases hop
  begins _ hop := by cases hop
  deletes _ _ := .inl hnext

end Accesses

section Save

variable {c : Codec} {keys : KeySource} {s : Cabinet} {m : CheckpointManifest} {n : Nat}
  {e : EncryptedManifest} {k : DataKey}

theorem ensures_failed {err : RepositoryError} :
    (contract c keys).Ensures n (.save m) (ensured c keys (.save m)) (.done (.saved (.error err)))
      s := by
  intro t _ _ h
  cases h

theorem saveSealed_ensures (hverify : verifyManifest c m = .ok ())
    (hseal : sealManifest c k m = .ok e) (hkey : keys m.workload.id k.version = .ok k.key)
    (hversion : k.version ≠ 0) (hsize : (c.encodeEnvelope e).length ≤ maxEncryptedManifestBytes)
    (hindex : s.index.get m.id = none) :
    (contract c keys).Ensures n (.save m) (ensured c keys (.save m))
      (saveSealed c m e >>= fun result => pure (.saved result)) s := by
  have hloaded := checkLoaded_seal hseal hverify hkey hversion hsize
  have hremove : ∀ (s : Cabinet) (err : RepositoryError), s.index.get m.id = none →
      (contract c keys).Ensures n (.save m) (ensured c keys (.save m))
        (.ask (.removeManifest m.id) fun _ => .done (.saved (.error err))) s := by
    intro s err hnone
    refine ensures_ask fun s' x hrely hinv _ => ?_
    have hnone' : s'.index.get m.id = none := hrely.1.trans hnone
    refine ⟨hinv.serve_of_none rfl ?_, .writes rfl rfl hnone', ensures_failed⟩
    simp only [serve]
    split <;> exact hnone'
  refine ensures_ask fun s' x hrely hinv _ => ?_
  have hnone : s'.index.get m.id = none := hrely.1.trans hindex
  have hwritten : (serve keys s' x
      (.writeManifest m.id (c.encodeEnvelope e))).1.index.get m.id = none := by
    simp only [serve]
    split <;> exact hnone
  refine ⟨hinv.serve_of_none rfl hwritten, .writes rfl rfl hnone, ?_⟩
  by_cases hx : x.happens = .yes
  · simp only [serve, report, hx, if_true]
    refine ensures_ask fun s₂ y hrely hinv _ => ?_
    have hnone₂ : s₂.index.get m.id = none := hrely.1.trans hnone
    have hfile : s₂.manifests.get m.id = some (c.encodeEnvelope e) :=
      hrely.2.trans (by simp)
    by_cases hy : y.happens = .yes
    · have hput : (serve keys s₂ y (.indexPut m.id (summarize m e.keyVersion))).1.index.get m.id =
          some (summarize m e.keyVersion) := by
        simp [serve, hy]
      have hkept : (serve keys s₂ y (.indexPut m.id (summarize m e.keyVersion))).1.manifests.get
          m.id = some (c.encodeEnvelope e) := by
        simpa [serve, hy] using hfile
      refine ⟨hinv.serve rfl fun summary hget => ?_, .writes rfl rfl hnone₂, ?_⟩
      · rw [hput] at hget
        cases hget
        exact ⟨m, e.keyVersion, _, rfl, hkept, hloaded⟩
      · simp only [serve, report, hy, if_true]
        intro u hretained _ _
        have hsame : Untouched m.id _ u := hretained (by simp)
        refine ⟨e.keyVersion, c.encodeEnvelope e, m, ?_, ?_, hloaded, rfl⟩
        · rw [hsame.1]
          simp
        · rw [hsame.2]
          exact hfile
    · have hput : (serve keys s₂ y (.indexPut m.id (summarize m e.keyVersion))).1 = s₂ := by
        simp [serve, hy]
      refine ⟨by rw [hput]; exact hinv, .writes rfl rfl hnone₂, ?_⟩
      rw [hput]
      simp only [serve, report, hy, if_false]
      exact hremove s₂ _ hnone₂
  · simp only [serve, report, hx, if_false]
    exact ensures_failed

theorem summarize_congr {m' : CheckpointManifest} (hcontents : contents m' = contents m)
    (hhash : m'.manifestSHA256 = m.manifestSHA256) (v : UInt32) :
    summarize m' v = summarize m v := by
  have hid : m'.id = m.id := congrArg (·.id) hcontents
  have hworkload : m'.workload = m.workload := congrArg (·.workload) hcontents
  have hparent : m'.parentID = m.parentID := congrArg (·.parentID) hcontents
  have hkind : m'.kind = m.kind := congrArg (·.kind) hcontents
  have hcreated : m'.createdAt = m.createdAt := congrArg (·.createdAt) hcontents
  have hmetrics : m'.metrics = m.metrics := congrArg (·.metrics) hcontents
  simp only [summarize, hid, hworkload, hparent, hkind, hcreated, hmetrics, hhash]

def finishSave (c : Codec) (m : CheckpointManifest) (e : EncryptedManifest) :
    Except RepositoryError CheckpointManifest → Caller Answer
  | .ok existing =>
    if existing.manifestSHA256 = m.manifestSHA256 then .done (.saved (.ok ()))
    else .done (.saved (.error (.other "checkpoint id already exists with different contents")))
  | .error err =>
    if absent err then saveSealed c m e >>= fun result => pure (.saved result)
    else .done (.saved (.error err))

def lookThenSave (c : Codec) (keys : KeySource) (m : CheckpointManifest) (e : EncryptedManifest) :
    Caller Answer :=
  .ask (.indexGet m.id) fun
    | none => finishSave c m e (.error .notFound)
    | some summary => .ask (.readManifest m.id) fun
      | .error err => finishSave c m e (.error err)
      | .ok encoded => finishSave c m e (checkLoaded c keys m.id summary encoded)

theorem load_then_finishSave (hverify : verifyManifest c m = .ok ()) :
    (do
      let result ← (do
        match ← load c keys m.id with
        | .ok existing =>
          if existing.manifestSHA256 = m.manifestSHA256 then pure (.ok ())
          else pure (.error (.other "checkpoint id already exists with different contents"))
        | .error err => if absent err then saveSealed c m e else pure (.error err))
      pure (.saved result)) = lookThenSave c keys m e := by
  have hfinish : ∀ loaded : Except RepositoryError CheckpointManifest,
      ((match loaded with
        | .ok existing =>
          if existing.manifestSHA256 = m.manifestSHA256 then pure (.ok ())
          else pure (.error (.other "checkpoint id already exists with different contents"))
        | .error err => if absent err then saveSealed c m e else pure (.error err) :
          Caller (Except RepositoryError Unit)) >>= fun result => pure (.saved result)) =
        finishSave c m e loaded := by
    rintro (err | existing)
    · simp only [finishSave]
      split <;> rfl
    · simp only [finishSave]
      split <;> rfl
  simp only [load, loadEncryptedManifest, (verifyManifest_ok hverify).id, access,
    perform_bind, ask_bind, lookThenSave]
  congr 1
  funext found
  cases found with
  | none => exact hfinish (.error .notFound)
  | some summary =>
    simp only [ask_bind]
    congr 1
    funext read
    cases read with
    | error err => exact hfinish (.error err)
    | ok encoded =>
      simp only [← hfinish]
      cases checkLoaded c keys m.id summary encoded <;> rfl

theorem program_save (hverify : verifyManifest c m = .ok ()) :
    program c keys (.save m) = .ask (.workloadKey m.workload.id) fun
      | .error err => .done (.saved (.error err))
      | .ok k =>
        match sealManifest c k m with
        | .error err => .done (.saved (.error err))
        | .ok e => lookThenSave c keys m e := by
  simp only [program, save, hverify, access, perform_bind, ask_bind]
  congr 1
  funext reply
  cases reply with
  | error err => rfl
  | ok k =>
    cases hseal : sealManifest c k m with
    | error err => simp only [hseal]; rfl
    | ok e =>
      simp only [hseal]
      exact load_then_finishSave hverify

/-- A `Save` stores its manifest only where the index has no entry; where there is one, success
means that the contents are those to be saved. -/
theorem lookThenSave_ensures (hsha : Function.Injective c.sha256)
    (hverify : verifyManifest c m = .ok ()) (hseal : sealManifest c k m = .ok e)
    (hkey : keys m.workload.id k.version = .ok k.key) (hversion : k.version ≠ 0)
    (hsize : (c.encodeEnvelope e).length ≤ maxEncryptedManifestBytes) (s : Cabinet) :
    (contract c keys).Ensures n (.save m) (ensured c keys (.save m)) (lookThenSave c keys m e)
      s := by
  refine ensures_ask fun s₁ x _ hinv _ => ⟨hinv,
    .idle (by simp) fun m' hop _ => by cases hop; rfl, ?_⟩
  simp only [serve]
  cases hget : s₁.index.get m.id with
  | none => exact saveSealed_ensures hverify hseal hkey hversion hsize hget
  | some summary =>
    refine ensures_ask fun s₂ y hrely hinv₂ _ => ?_
    have hsame : Untouched m.id s₁ s₂ := hrely (by rw [hget]; exact some_ne_none _)
    obtain ⟨m', v, encoded, rfl, hfile, hcheck⟩ := hinv₂ m.id summary (hsame.1.trans hget)
    by_cases hy : y.happens = .yes
    · simp only [serve, hy, if_true, hfile, hcheck, finishSave]
      split
      · rename_i hhash
        have hcontents : contents m' = contents m :=
          contents_eq_of_digest hsha (checkLoaded_ok hcheck).verified hverify hhash
        have hsummary := summarize_congr hcontents hhash v
        refine ⟨hinv₂, .ends (by simp) rfl, fun u hretained _ _ => ?_⟩
        have hstays : Untouched m.id s₂ u :=
          hretained (by rw [hsame.1, hget]; exact some_ne_none _)
        refine ⟨v, encoded, m', ?_, hstays.2.trans hfile, hsummary ▸ hcheck, hcontents⟩
        rw [hstays.1, hsame.1, hget, hsummary]
      · exact ⟨hinv₂, .ends (by simp) rfl, ensures_failed⟩
    · simp only [serve, hy, if_false, finishSave, absent]
      exact ⟨hinv₂, .ends (by simp) rfl, ensures_failed⟩

theorem save_ensures (hsha : Function.Injective c.sha256) (m : CheckpointManifest) (s : Cabinet) :
    (contract c keys).Ensures n (.save m) (ensured c keys (.save m)) (program c keys (.save m))
      s := by
  cases hverify : verifyManifest c m with
  | error err =>
    simp only [program, save, hverify]
    exact ensures_failed
  | ok _ =>
    rw [program_save hverify]
    refine ensures_ask fun s₁ x _ hinv hallowed => ?_
    by_cases hx : x.happens = .yes
    · cases hkey : keys m.workload.id x.version with
      | error err =>
        simp only [serve, hx, if_true, hkey]
        exact ⟨hinv, .ends (by simp) rfl, ensures_failed⟩
      | ok key =>
        simp only [serve, hx, if_true, hkey]
        cases hseal : sealManifest c ⟨x.version, key, x.nonce⟩ m with
        | error err => exact ⟨hinv, .ends (by simp) rfl, ensures_failed⟩
        | ok e =>
          have hdrawn := hallowed.1 m _ rfl rfl hx
          simp only [drawn, hkey, hseal, Bool.and_eq_true, decide_eq_true_eq, ne_eq] at hdrawn
          exact ⟨hinv, .ends (by simp) rfl,
            lookThenSave_ensures hsha hverify hseal hkey hdrawn.1 hdrawn.2 s₁⟩
    · simp only [serve, hx, if_false]
      exact ⟨hinv, .ends (by simp) rfl, ensures_failed⟩

end Save

section Others

variable {c : Codec} {keys : KeySource} {n : Nat} {id : String}

theorem program_load (hid : validateID id "checkpoint id" = .ok ()) :
    program c keys (.load id) = .ask (.indexGet id) fun
      | none => .done (.loaded (.error .notFound))
      | some summary => .ask (.readManifest id) fun
        | .error err => .done (.loaded (.error err))
        | .ok encoded => .done (.loaded (checkLoaded c keys id summary encoded)) := by
  simp only [program, load, loadEncryptedManifest, hid, access, perform_bind,
    ask_bind]
  congr 1
  funext found
  cases found with
  | none => rfl
  | some summary =>
    simp only [ask_bind]
    congr 1
    funext read
    cases read with
    | error err => rfl
    | ok encoded =>
      simp only [pure_eq_done, done_bind]
      cases checkLoaded c keys id summary encoded <;> rfl

theorem program_delete (hid : validateID id "checkpoint id" = .ok ()) :
    program c keys (.delete id) = .ask (.indexGet id) fun
      | none => .done (.deleted (.error .notFound))
      | some _ => .ask (.indexDelete id) fun
        | .error err => .done (.deleted (.error err))
        | .ok () => .ask (.removeDirectory id) fun result => .done (.deleted result) := by
  simp only [program, delete, hid, access, perform_bind, ask_bind]
  congr 1
  funext found
  cases found with
  | none => rfl
  | some summary =>
    simp only [ask_bind]
    congr 1
    funext reply
    cases reply <;> rfl

theorem load_ensures (id : String) (s : Cabinet) :
    (contract c keys).Ensures n (.load id) (ensured c keys (.load id)) (program c keys (.load id))
      s := by
  cases hid : validateID id "checkpoint id" with
  | error err =>
    simp only [program, load, loadEncryptedManifest, hid]
    exact fun _ _ _ => trivial
  | ok _ =>
    rw [program_load hid]
    refine ensures_ask fun s₁ x _ hinv _ => ⟨hinv, .reads (by simp) (by simp), ?_⟩
    simp only [serve]
    cases s₁.index.get id with
    | none => exact fun _ _ _ => trivial
    | some summary =>
      refine ensures_ask fun s₂ y _ hinv₂ _ => ⟨hinv₂, .reads (by simp) (by simp), ?_⟩
      split <;> exact fun _ _ _ => trivial

theorem list_ensures (workloadID : String) (s : Cabinet) :
    (contract c keys).Ensures n (.list workloadID) (ensured c keys (.list workloadID))
      (program c keys (.list workloadID)) s :=
  ensures_ask fun _ _ _ hinv _ => ⟨hinv, .reads (by simp) (by simp), fun _ _ _ => trivial⟩

theorem delete_ensures (id : String) (s : Cabinet) :
    (contract c keys).Ensures n (.delete id) (ensured c keys (.delete id))
      (program c keys (.delete id)) s := by
  cases hid : validateID id "checkpoint id" with
  | error err =>
    simp only [program, delete, hid]
    exact fun _ _ _ => trivial
  | ok _ =>
    rw [program_delete hid]
    refine ensures_ask fun s₁ x _ hinv _ => ⟨hinv, .reads (by simp) (by simp), ?_⟩
    simp only [serve]
    cases s₁.index.get id with
    | none => exact fun _ _ _ => trivial
    | some summary =>
      refine ensures_ask fun s₂ y _ hinv₂ _ => ?_
      by_cases hy : y.happens = .yes
      · have hgone : (serve keys s₂ y (.indexDelete id)).1.index.get id = none := by
          simp [serve, hy, get_erase]
        refine ⟨hinv₂.serve_of_none rfl hgone, .deletes_touched rfl ?_, ?_⟩
        · simp [serve, hy, report, removed]
        · simp only [serve, hy, report, if_true] at hgone ⊢
          refine ensures_ask fun s₃ z hrely hinv₃ hallowed => ?_
          have hz := hallowed.2 id rfl
          have hnone : s₃.index.get id = none := hrely.1.trans hgone
          refine ⟨hinv₃.serve_of_none rfl ?_, .deletes_touched rfl ?_, fun _ _ _ => trivial⟩
          · simpa [serve, hz] using hnone
          · simp [serve, hz, report, removed]
      · simp only [serve, hy, report, if_false]
        exact ⟨hinv₂, .reads (by simp) (by simp), fun _ _ _ => trivial⟩

theorem program_ensures (hsha : Function.Injective c.sha256) (op : Op) (s : Cabinet) :
    (contract c keys).Ensures n op (ensured c keys op) (program c keys op) s := by
  cases op with
  | save m => exact save_ensures hsha m s
  | load id => exact load_ensures id s
  | list workloadID => exact list_ensures workloadID s
  | delete id => exact delete_ensures id s

end Others

end Shiftgate.Checkpoint.Repository
