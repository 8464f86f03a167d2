import Shiftgate.Securestore.CollectionReplay

/-! What each step of a collection does to what a re-open finds. A mutation ends in one of three
ways: it returns success and is found, it returns an error and the state before it is found, or the
process stops and either is found. -/

namespace Shiftgate.Securestore.Collection

open Library List TruncateFaults Coll

variable {T : Type} {env : Env T}

def OnDisk (env : Env T) (files : Files T) (items : Items T) : Prop :=
  ∃ revision, Durable env files revision items

def Holding (env : Env T) (c : Coll T) (items : Items T) : Prop :=
  ∃ revision, Durable env c.files revision items ∧ revision ≤ c.data.revision.toNat

def Live (env : Env T) (c : Coll T) (items : Items T) : Prop :=
  Holding env c items ∧ c.data.items = items

def Folded (env : Env T) (c : Coll T) (items : Items T) : Prop :=
  Live env c items ∧ c.files.snapshot = some c.data

variable {c : Coll T} {post : Post (Coll T) CollError Unit} {log : List (Logged T)}
  {tail line : Bytes} {revision : Nat}

theorem Holding.onDisk {items : Items T} (h : Holding env c items) : OnDisk env c.files items := by
  obtain ⟨revision, hd, -⟩ := h
  exact ⟨revision, hd⟩

theorem Holding.unnamed {items : Items T} (h : Holding env c items) : items "" = none := by
  obtain ⟨revision, ⟨log, tail, hf⟩, -⟩ := h
  exact hf.unnamed

def PersistFaults.landsWithError (f : PersistFaults) : Bool :=
  f.prepare = .none && f.rename = .none && f.syncDirectory = .fail

theorem wp_persist {s : Coll T} (f : PersistFaults) (hok : post.ok () (s.setSnapshot s.data))
    (herror : ∀ e, post.error e s)
    (hlanded : f.landsWithError = true → ∀ e, post.error e (s.setSnapshot s.data))
    (hcrash : post.crash s) (hcrash' : post.crash (s.setSnapshot s.data)) :
    wp (persist f) post s := by
  simp only [persist, wp_bind]
  refine wp_effect_id (fun hprepare => ?_) fun _ => ⟨herror _, hcrash⟩
  simp only [wp_bind]
  rw [wp_effect]
  refine ⟨fun hrename => ?_, fun _ => herror _, fun _ => hcrash⟩
  refine (wp_effect _ _ _).mpr ⟨fun _ => hok, fun hsync => hlanded ?_ _, fun _ => hcrash'⟩
  simp [PersistFaults.landsWithError, hprepare, hrename, hsync]

def TruncateFaults.leaves (f : TruncateFaults) : Bool :=
  f.openFile = .fail || (f.openFile = .none && f.truncate = .fail)

def TruncateFaults.stops (f : TruncateFaults) : Bool :=
  f.openFile = .crash || f.truncate = .crash || f.sync = .crash

theorem wp_truncateJournal {s : Coll T} (f : TruncateFaults) {size : Nat} {bytes : Bytes}
    (hbytes : s.files.journal = some bytes)
    (hok : post.ok () (s.setJournal (some (bytes.take size))))
    (herror : ∀ e, post.error e (s.setJournal (some (bytes.take size))))
    (hleft : f.leaves = true → ∀ e, post.error e s) (hcrash : f.stops = true → post.crash s ∧
      post.crash (s.setJournal (some (bytes.take size)))) : wp (truncateJournal f size) post s := by
  have hsome : s.files.journal.isNone = false := by simp [hbytes]
  simp only [truncateJournal, wp_bind, wp_get, hsome, Bool.false_eq_true, if_false]
  refine (wp_effect _ _ _).mpr ⟨fun hopen => ?_, fun hopen => hleft ?_ _, fun hstop => ?_⟩
  · simp only [wp_bind]
    refine (wp_effect _ _ _).mpr ⟨fun _ => ?_, fun htruncate => hleft ?_ _, fun hstop => ?_⟩
    · simp only [id_eq, hbytes, Option.map_some]
      refine (wp_effect _ _ _).mpr ⟨fun _ => hok, fun _ => herror _, fun hstop => ?_⟩
      exact (hcrash (by simp [stops, hstop])).2
    · simp [leaves, hopen, htruncate]
    · exact (hcrash (by simp [stops, hstop])).1
  · simp [leaves, hopen]
  · exact (hcrash (by simp [stops, hstop])).1

section Fold

variable {s : Coll T} {items : Items T}

theorem Folded.removed (h : Folded env s items) : Folded env (s.setJournal none) items := by
  obtain ⟨⟨hheld, hitems⟩, hsnapshot⟩ := h
  have hunnamed : s.data.items "" = none := hitems ▸ hheld.unnamed
  have hfound : Found env (s.setJournal none).files [] [] s.data.revision.toNat s.data.items :=
    found_snapshot hsnapshot rfl hunnamed
  exact ⟨⟨⟨_, ⟨_, _, hitems ▸ hfound⟩, le_refl _⟩, hitems⟩, hsnapshot⟩

theorem removeJournal_folded (h : Folded env s items) (fault : Fault) :
    wp (removeJournal fault) (.always (Folded env · items)) s := by
  rw [removeJournal, wp_effect]
  exact ⟨fun _ => h.removed, fun _ => h, fun _ => h⟩

theorem Found.snapshotted {before : Items T} (h : Found env s.files log tail revision before)
    (hunnamed : s.data.items "" = none) (habsorbed : Absorbs s.data log) :
    Folded env (s.setSnapshot s.data) s.data.items :=
  ⟨⟨⟨_, ⟨_, _, h.withSnapshot hunnamed habsorbed⟩, le_refl _⟩, rfl⟩, rfl⟩

/-- After a line was appended: memory has absorbed the journal, so a compaction may write it out. -/
def Foldable (env : Env T) (c : Coll T) (items : Items T) : Prop :=
  c.data.items = items ∧ ∃ log tail,
    Found env c.files log tail c.data.revision.toNat items ∧ Absorbs c.data log

section

variable (h : Foldable env s items)

include h

theorem Foldable.live : Live env s items := by
  obtain ⟨hitems, log, tail, hfound, -⟩ := h
  exact ⟨⟨_, ⟨log, tail, hfound⟩, le_refl _⟩, hitems⟩

theorem Foldable.folded : Folded env (s.setSnapshot s.data) items := by
  obtain ⟨hitems, log, tail, hfound, habsorbed⟩ := h
  have hunnamed : s.data.items "" = none := hitems ▸ hfound.unnamed
  exact hitems ▸ hfound.snapshotted hunnamed habsorbed

theorem compact_live (f : PersistFaults) (remove : Fault) :
    wp (compact f remove) (.always (Live env · items)) s := by
  have hlive := h.live
  simp only [compact, wp_bind]
  refine wp_persist f ?_ (fun _ => hlive) (fun _ _ => h.folded.1) hlive h.folded.1
  simp only [wp_bind]
  exact wp_mono (removeJournal_folded h.folded remove) (fun _ _ ht => ht.1) (fun _ _ ht => ht.1)
    fun _ ht => ht.1

theorem maybeCompact_live (ev : AppendEvents) :
    wp (maybeCompact ev) { ok := fun _ t => Live env t items, error := fun _ _ => False,
                           crash := fun t => Live env t items } s := by
  simp only [maybeCompact, wp_bind, wp_get, wp_ite]
  refine ⟨fun _ => h.live, fun _ => ?_⟩
  simp only [wp_attempt]
  exact wp_mono (compact_live h ev.compact ev.compactRemove) (fun _ _ ht => ht) (fun _ _ ht => ht)
    fun _ ht => ht

end

end Fold

structure Ready (env : Env T) (s : Coll T) (m : Mutation T) (items : Items T) : Prop where
  held : Holding env s items
  applied : s.data.items = m.apply items
  named : m.id ≠ ""
  room : s.data.revision.toNat + 1 < 2 ^ 64

/-- On an error the mutation is still in memory, where the caller takes it back. -/
def recorded (env : Env T) (m : Mutation T) (items : Items T) : Post (Coll T) CollError Unit where
  ok := fun _ t => Live env t (m.apply items)
  error := fun _ t => Holding env t items ∧ t.data.items = m.apply items
  crash := fun t => OnDisk env t.files items ∨ OnDisk env t.files (m.apply items)

section Append

variable {s : Coll T} {m : Mutation T} {items : Items T}

namespace Ready

theorem toNat_next (h : Ready env s m items) :
    (s.data.revision + 1).toNat = s.data.revision.toNat + 1 := by
  have hroom := h.room
  rw [UInt64.toNat_add]
  simp
  omega

theorem unnamed (h : Ready env s m items) : s.data.items "" = none := by
  rw [h.applied, Mutation.apply, Items.set_other _ _ h.named.symm]
  exact h.held.unnamed

theorem folded (h : Ready env s m items) :
    Folded env ((s.setRevision (s.data.revision + 1)).setSnapshot
      (s.setRevision (s.data.revision + 1)).data) (m.apply items) := by
  obtain ⟨revision, ⟨log, tail, hfound⟩, hle⟩ := h.held
  have habsorbed : Absorbs (s.setRevision (s.data.revision + 1)).data log := by
    intro l hl
    have hnewest := hfound.newest l hl
    have hnext : (s.setRevision (s.data.revision + 1)).data.revision.toNat =
      s.data.revision.toNat + 1 := h.toNat_next
    left
    omega
  rw [← h.applied]
  exact Found.snapshotted (s := s.setRevision (s.data.revision + 1)) hfound h.unnamed habsorbed

end Ready

theorem persistNext_folded (h : Ready env s m items) (f : PersistFaults)
    (hf : f.landsWithError = false) :
    wp (persistNext f) { ok := fun _ t => Folded env t (m.apply items),
                         error := (recorded env m items).error,
                         crash := (recorded env m items).crash } s := by
  have hheld : Holding env s items := h.held
  simp only [persistNext, wp_bind, wp_get, wp_modify, wp_attempt]
  refine wp_persist f h.folded (fun e => ?_) (fun hlanded => ?_) ?_ ?_
  · exact ⟨hheld, h.applied⟩
  · simp [hf] at hlanded
  · exact .inl hheld.onDisk
  · exact .inr h.folded.1.1.onDisk

theorem foldDamaged_recorded (h : Ready env s m items) (ev : AppendEvents)
    (hf : ev.persist.landsWithError = false) : wp (foldDamaged ev) (recorded env m items) s := by
  simp only [foldDamaged, wp_bind]
  refine wp_mono (persistNext_folded h ev.persist hf) (fun _ t ht => ?_) (fun _ _ ht => ht)
    fun _ ht => ht
  simp only [wp_bind, wp_attempt]
  exact wp_mono (removeJournal_folded ht ev.remove) (fun _ _ hu => hu.1) (fun _ _ hu => hu.1)
    fun _ hu => .inr hu.1.1.onDisk

def landedPart (ev : AppendEvents) (line : Bytes) : Bytes :=
  if ev.write = .none then line else line.take ev.landed

theorem landedPart_cases (ev : AppendEvents) (hline : newline ∉ line) :
    landedPart ev (line ++ [newline]) = line ++ [newline] ∨
      newline ∉ landedPart ev (line ++ [newline]) := by
  unfold landedPart
  split
  · exact .inl rfl
  · by_cases hlong : ev.landed ≤ line.length
    · rw [take_append_of_le_length hlong]
      exact .inr fun hmem => hline (mem_of_mem_take hmem)
    · exact .inl (take_of_length_le (by simp; omega))

theorem wp_appendLine (ev : AppendEvents) (line : Bytes) (hok : ev.write = .none → post.ok ()
      (s.setJournal (some (s.writtenJournal ++ landedPart ev line))))
    (herror : ev.write = .fail ∨ ev.sync = .fail → ∀ e, post.error e
      (s.setJournal (some (s.writtenJournal ++ landedPart ev line))))
    (hcrash : post.crash (s.setJournal (some (s.writtenJournal ++ landedPart ev line)))) :
    wp (appendLine ev line) post s := by
  simp only [appendLine, writeLine, wp_bind, wp_attempt, wp_modify]
  refine (wp_effect _ _ _).mpr ⟨fun hwrite => ?_, fun hwrite => ?_, fun _ => hcrash⟩
  · simp only [wp_bind, wp_attempt]
    refine (wp_effect _ _ _).mpr ⟨fun _ => hok hwrite, fun hsync => ?_, fun _ => hcrash⟩
    exact herror (.inr hsync) _
  · simp only [wp_bind, wp_attempt]
    refine (wp_effect _ _ _).mpr ⟨fun _ => ?_, fun _ => ?_, fun _ => hcrash⟩
    · exact herror (.inl hwrite) _
    · exact herror (.inl hwrite) _

def Terminated (c : Coll T) : Prop := ∀ b ∈ c.writtenJournal.getLast?, b = newline

namespace Ready

theorem part (h : Ready env s m items) (ht : Terminated s) {part : Bytes}
    (hpart : newline ∉ part) :
    Holding env (s.setJournal (some (s.writtenJournal ++ part))) items := by
  obtain ⟨revision, ⟨log, tail, hfound⟩, hle⟩ := h.held
  have htail : tail = [] := hfound.tail_eq_nil ht
  have hold : s.writtenJournal = logBytes log := by
    rw [writtenJournal, hfound.bytes, htail, append_nil]
  refine ⟨revision, ⟨log, part, ?_⟩, hle⟩
  rw [hold]
  exact hfound.withTail hpart

theorem whole (h : Ready env s m items) (ht : Terminated s) {keyVersion : UInt32} {nonce : Nonce}
    (hline : journalLine env keyVersion nonce (s.data.revision + 1) m.op m.id
      m.value = .ok (line ++ [newline])) :
    Foldable env ((s.setJournal (some (s.writtenJournal ++ (line ++ [newline])))).setRevision
      (s.data.revision + 1)) (m.apply items) := by
  obtain ⟨revision, ⟨log, tail, hfound⟩, hle⟩ := h.held
  have htail : tail = [] := hfound.tail_eq_nil ht
  have hold : s.writtenJournal = logBytes log := by
    rw [writtenJournal, hfound.bytes, htail, append_nil]
  have hnext := h.toNat_next
  let l : Logged T := ⟨line, s.data.revision + 1, m⟩
  have hbytes : s.writtenJournal ++ (line ++ [newline]) = logBytes (log ++ [l]) := by
    simp [hold, logBytes, terminated_append, l]
  refine ⟨h.applied, log ++ [l], [], ?_, fun l' hl' => ?_⟩
  · rw [hbytes]
    exact hfound.appended (l := l) ⟨h.named, keyVersion, nonce, hline⟩ (by simp [l, hnext]; omega)
  · rcases mem_append.mp hl' with hl' | hl'
    · have hnewest := hfound.newest l' hl'
      left
      show l'.revision.toNat < (s.data.revision + 1).toNat
      omega
    · right
      rw [mem_singleton.mp hl']
      refine ⟨rfl, ?_⟩
      show m.apply s.data.items = s.data.items
      rw [h.applied, m.apply_apply]

end Ready

theorem recordLine_recorded (ev : AppendEvents) (line : Bytes) (next : UInt64)
    (freshJournal : Bool) (h : Foldable env (s.setRevision next) (m.apply items)) :
    wp (recordLine ev line next freshJournal) (recorded env m items) s := by
  have hcompact : wp (maybeCompact ev) (recorded env m items)
      ((s.setRevision next).countLine line.length) := by
    have hcounted : Foldable env ((s.setRevision next).countLine line.length) (m.apply items) := h
    exact wp_mono (maybeCompact_live hcounted ev) (fun _ _ ht => ht) (fun _ _ ht => False.elim ht)
      fun _ ht => .inr ht.1.onDisk
  simp only [recordLine, wp_bind, wp_modify, wp_onlyIf]
  refine ⟨fun _ => ?_, fun _ => hcompact⟩
  exact (wp_point _).mpr ⟨fun _ => hcompact, fun _ => .inr h.live.1.onDisk⟩

/-- A failed append is taken out again, or leaves no complete line and its revision is not used
again. -/
theorem cutAppend_recorded (h : Ready env s m items) (ht : Terminated s) (f : TruncateFaults)
    {part : Bytes} (hleft : f.leaves = true → newline ∉ part)
    (hcrash : OnDisk env (s.setJournal (some (s.writtenJournal ++ part))).files items ∨
      OnDisk env (s.setJournal (some (s.writtenJournal ++ part))).files (m.apply items))
    (e : CollError) :
    wp (do cutAppend f s.writtenJournal.length (s.data.revision + 1); Program.throw e)
      (recorded env m items) (s.setJournal (some (s.writtenJournal ++ part))) := by
  have hnext := h.toNat_next
  have hcut : Holding env (s.setJournal (some s.writtenJournal)) items := by
    have hnil : newline ∉ ([] : Bytes) := by simp
    have := h.part ht hnil
    rwa [append_nil] at this
  have htake : (s.writtenJournal ++ part).take s.writtenJournal.length = s.writtenJournal :=
    take_left
  -- the burned revision is one ahead of the one in memory
  have hburned : ∀ {t : Coll T}, Holding env t items → t.data.revision = s.data.revision →
      Holding env (t.setRevision (s.data.revision + 1)) items := by
    rintro t ⟨revision, hd, hle⟩ hrevision
    refine ⟨revision, hd, ?_⟩
    show revision ≤ (s.data.revision + 1).toNat
    rw [hrevision] at hle
    omega
  simp only [cutAppend, wp_bind, wp_attempt]
  have hbytes : (s.setJournal (some (s.writtenJournal ++ part))).files.journal =
      some (s.writtenJournal ++ part) := rfl
  refine wp_truncateJournal f hbytes ?_ (fun _ => ?_) (fun hl _ => ?_) fun _ => ⟨hcrash, ?_⟩
  · rw [htake]
    exact ⟨hcut, h.applied⟩
  · rw [htake]
    exact ⟨hburned hcut rfl, h.applied⟩
  · exact ⟨hburned (h.part ht (hleft hl)) rfl, h.applied⟩
  · rw [htake]
    exact .inl hcut.onDisk

end Append

def Journals (c : Coll T) (ev : AppendEvents) : Prop :=
  c.journalDamaged = false ∧ ¬(c.files.snapshot.isNone ∧ ev.statSnapshot = .none)

/-- The append returns an error, its whole line is in the file, and the truncation fails. -/
def LeavesLine (env : Env T) (c : Coll T) (ev : AppendEvents) (m : Mutation T) : Prop :=
  ∃ line ∈ (journalLine env ev.keyVersion ev.nonce (c.data.revision + 1) m.op m.id
      m.value).toOption,
    (ev.write = .fail ∨ ev.sync = .fail) ∧ ev.truncate.leaves = true ∧ landedPart ev line = line

/-- The revision does not wrap around. A snapshot that carries the mutation does not fail after its
rename; a line that carries it goes to a journal that ends in a newline, and is not left there
whole by an append that returns an error. -/
def Clean (env : Env T) (c : Coll T) (ev : AppendEvents) (m : Mutation T) : Prop :=
  c.data.revision.toNat + 1 < 2 ^ 64 ∧
    (¬Journals c ev → ev.persist.landsWithError = false) ∧
    (Journals c ev → Terminated c ∧ ¬LeavesLine env c ev m)

section Mutate

variable {s : Coll T} {m : Mutation T} {items : Items T}

theorem Holding.setJournal_written (h : Holding env s items) :
    Holding env (s.setJournal (some s.writtenJournal)) items := by
  obtain ⟨revision, ⟨log, tail, hfound⟩, hle⟩ := h
  exact ⟨revision, ⟨log, tail, ⟨⟨hfound.bytes, hfound.unterminated, hfound.written⟩,
    hfound.recovered, hfound.newest, hfound.unnamed⟩⟩, hle⟩

theorem journalEntry_recorded (h : Ready env s m items) (ev : AppendEvents) (ht : Terminated s)
    (hline : ¬LeavesLine env s ev m) :
    wp (journalEntry env ev m.op m.id m.value) (recorded env m items) s := by
  have hheld : Holding env s items := h.held
  have hopened := hheld.setJournal_written
  simp only [journalEntry, wp_bind, wp_get]
  refine wp_effect_id (fun _ => ?_) fun _ => ⟨⟨hheld, h.applied⟩, .inl hheld.onDisk⟩
  simp only [wp_bind]
  cases hl : journalLine env ev.keyVersion ev.nonce (s.data.revision + 1) m.op m.id m.value with
  | error e =>
    rw [wp_liftExcept_error]
    exact ⟨hheld, h.applied⟩
  | ok full =>
    obtain ⟨key, ciphertext, -, -, rfl⟩ := journalLine_ok hl
    rw [wp_liftExcept_ok]
    simp only [wp_bind]
    refine wp_effect_id (fun _ => ?_) fun _ => ⟨⟨hheld, h.applied⟩, .inl hheld.onDisk⟩
    simp only [wp_bind]
    refine (wp_effect _ _ _).mpr
      ⟨fun _ => ?_, fun _ => ⟨hheld, h.applied⟩, fun _ => .inl hheld.onDisk⟩
    simp only [wp_bind]
    refine wp_effect_id (fun _ => ?_) fun _ => ⟨⟨hopened, h.applied⟩, .inl hopened.onDisk⟩
    simp only [wp_bind, wp_attempt]
    have hcases := landedPart_cases ev (env.newline_not_mem
      ⟨1, ev.keyVersion, s.data.revision + 1, m.op.text, m.id, ev.nonce.val, ciphertext⟩)
    have hwhole := h.whole ht hl
    generalize env.marshalEntry ⟨1, ev.keyVersion, s.data.revision + 1, m.op.text, m.id,
      ev.nonce.val, ciphertext⟩ = line at *
    -- whatever part of the line is in the file, one of the two states is found
    have heither : OnDisk env (s.setJournal (some (s.writtenJournal ++
          landedPart ev (line ++ [newline])))).files items ∨
        OnDisk env (s.setJournal (some (s.writtenJournal ++
          landedPart ev (line ++ [newline])))).files (m.apply items) := by
      rcases hcases with hall | hpart
      · rw [hall]
        exact .inr hwhole.live.1.onDisk
      · exact .inl (h.part ht hpart).onDisk
    refine wp_appendLine ev (line ++ [newline]) (fun hwrite => ?_) (fun hfail e => ?_) heither
    · have hall : landedPart ev (line ++ [newline]) = line ++ [newline] := by
        simp [landedPart, hwrite]
      rw [hall]
      exact recordLine_recorded ev _ _ _ hwhole
    · refine cutAppend_recorded h ht ev.truncate (fun hleaves => ?_) heither e
      refine hcases.resolve_left fun hall => hline ⟨line ++ [newline], ?_, hfail, hleaves, hall⟩
      simp [hl, Except.toOption]

theorem appendEntry_recorded (h : Ready env s m items) (ev : AppendEvents)
    (hclean : Clean env s ev m) :
    wp (appendEntry env ev m.op m.id m.value) (recorded env m items) s := by
  obtain ⟨-, hsnapshot, hjournal⟩ := hclean
  simp only [appendEntry, wp_bind, wp_get, wp_ite]
  refine ⟨fun hdamaged => ?_, fun hdamaged => ?_⟩
  · exact foldDamaged_recorded h ev (hsnapshot fun hj => by simp [hj.1] at hdamaged)
  · rw [Bool.not_eq_true] at hdamaged
    refine (wp_point _).mpr ⟨fun _ => ?_, fun _ => Or.inl h.held.onDisk⟩
    refine (wp_ite _ _).mpr ⟨fun hfirst => ?_, fun hlater => ?_⟩
    · exact wp_mono (persistNext_folded h ev.persist (hsnapshot fun hj => hj.2 hfirst))
        (fun _ _ ht => ht.1) (fun _ _ ht => ht) fun _ ht => ht
    · obtain ⟨ht, hline⟩ := hjournal ⟨hdamaged, hlater⟩
      exact journalEntry_recorded h ev ht hline

def mutated (env : Env T) (m : Mutation T) (items : Items T) : Post (Coll T) CollError Unit where
  ok := fun _ t => Live env t (m.apply items)
  error := fun _ t => Live env t items
  crash := fun t => OnDisk env t.files items ∨ OnDisk env t.files (m.apply items)

theorem mutate_mutated (h : Live env s items) (hnamed : m.id ≠ "") (ev : AppendEvents)
    (hclean : Clean env s ev m) : wp (mutate env ev m.op m.id m.value) (mutated env m items) s := by
  obtain ⟨hheld, hitems⟩ := h
  have hready : Ready env (s.setItem m.id m.value) m items :=
    ⟨hheld, by rw [← hitems]; rfl, hnamed, hclean.1⟩
  simp only [mutate, wp_bind, wp_get, wp_modify, wp_attempt]
  refine wp_mono (appendEntry_recorded hready ev hclean) (fun _ _ ht => ht) (fun e t ht => ?_)
    fun _ ht => ht
  refine ⟨ht.1, ?_⟩
  show t.data.items.set m.id (s.data.items m.id) = items
  rw [ht.2, Mutation.apply, hitems, Items.set_set_self]

end Mutate

def OpenFaults.stops (f : OpenFaults) : Bool :=
  f.readSnapshot = .crash || f.readJournal = .crash || f.truncate.stops

def opened (env : Env T) (f : OpenFaults) (items : Items T) : Post (Coll T) CollError Unit where
  ok := fun _ t => Live env t items
  error := fun _ t => (f.readSnapshot = .fail ∨ f.readJournal = .fail) ∧ OnDisk env t.files items
  crash := fun t => f.stops = true ∧ OnDisk env t.files items

section Open

variable {s : Coll T} {items : Items T}

theorem Coll.load_data (files : Files T) :
    ((fresh files).load.data.revision.toNat, (fresh files).load.data.items) =
      files.base := by
  cases h : files.snapshot <;> simp [load, fresh, Files.base, h]

theorem cutTail_live (hfound : Found env s.files log tail revision items)
    (hjournal : s.files.journal = some (logBytes log ++ tail)) (hitems : s.data.items = items)
    (hle : revision ≤ s.data.revision.toNat) (f : TruncateFaults) :
    wp (cutTail f (logBytes log).length)
      { ok := fun _ t => Live env t items, error := fun _ _ => False,
        crash := fun t => f.stops = true ∧ OnDisk env t.files items } s := by
  have hcut : Found env (s.setJournal (some (logBytes log))).files log [] revision items := by
    have hnil : newline ∉ ([] : Bytes) := by simp
    have := hfound.withTail hnil
    rwa [append_nil] at this
  have htake : (logBytes log ++ tail).take (logBytes log).length = logBytes log := take_left
  simp only [cutTail, wp_bind, wp_attempt]
  refine wp_truncateJournal f hjournal ?_ (fun _ => ?_) (fun _ _ => ?_) fun hstop => ⟨?_, ?_⟩
  · rw [htake]
    exact ⟨⟨revision, ⟨log, [], hcut⟩, hle⟩, hitems⟩
  · rw [htake]
    exact ⟨⟨revision, ⟨log, [], hcut⟩, hle⟩, hitems⟩
  · exact ⟨⟨revision, ⟨log, tail, hfound⟩, hle⟩, hitems⟩
  · exact ⟨hstop, revision, log, tail, hfound⟩
  · rw [htake]
    exact ⟨hstop, revision, log, [], hcut⟩

theorem replayJournal_opened (env : Env T) (f : OpenFaults) {files : Files T}
    (h : OnDisk env files items) :
    wp (replayJournal env f) (opened env f items) (fresh files).load := by
  obtain ⟨revision, log, tail, hfound⟩ := h
  have hrecovered : LogEntry.replay files.base (log.map Logged.entry) = (revision, items) :=
    hfound.recovered
  have hfiles : (fresh files).load.files = files := rfl
  simp only [replayJournal, wp_bind]
  refine (wp_effect _ _ _).mpr ⟨fun _ => ?_, fun hfail => ⟨.inr hfail, revision, log, tail, hfound⟩,
    fun hstop => ⟨by simp [OpenFaults.stops, hstop], revision, log, tail, hfound⟩⟩
  simp only [wp_bind, wp_get, hfiles]
  cases hjournal : files.journal with
  | none =>
    -- no journal: the log is empty and the snapshot is everything
    have hbytes := hfound.bytes
    rw [hjournal, Option.getD_none] at hbytes
    have hlog : log = [] := by
      cases log with
      | nil => rfl
      | cons l rest => simp [logBytes] at hbytes
    rw [hlog, map_nil, LogEntry.replay_nil, ← load_data, Prod.mk.injEq] at hrecovered
    exact ⟨⟨revision, ⟨log, tail, hfound⟩, hrecovered.1.ge⟩, hrecovered.2⟩
  | some encoded =>
    have hsplit := hfound.splitOn
    have hbytes := hfound.bytes
    rw [hjournal, Option.getD_some] at hsplit hbytes
    obtain ⟨hdata, hdamaged, htorn⟩ :=
      replayLines_log hfound.written tail 0 (fresh files).load.data 0
    rw [load_data, hrecovered, Prod.mk.injEq, ← hsplit] at hdata
    rw [← hsplit, Nat.zero_add] at htorn
    simp only [wp_bind, wp_modify]
    by_cases htail : tail = []
    · rw [if_pos htail] at htorn
      simp only [htorn]
      exact ⟨⟨revision, ⟨log, tail, hfound⟩, hdata.1.ge⟩, hdata.2⟩
    · rw [if_neg htail] at htorn
      simp only [htorn]
      refine wp_mono (cutTail_live hfound ?_ hdata.2 hdata.1.ge f.truncate) (fun _ _ ht => ht)
        (fun _ _ ht => False.elim ht) fun _ ht => ⟨by simp [OpenFaults.stops, ht.1], ht.2⟩
      show files.journal = _
      rw [hjournal, hbytes]

theorem openCollection_opened (f : OpenFaults) (h : OnDisk env s.files items) :
    wp (openCollection env f) (opened env f items) s := by
  simp only [openCollection, wp_bind, wp_modify]
  refine (wp_effect _ _ _).mpr ⟨fun _ => ?_, fun hfail => ⟨.inl hfail, h⟩,
    fun hstop => ⟨by simp [OpenFaults.stops, hstop], h⟩⟩
  simp only [wp_bind, wp_modify]
  exact replayJournal_opened env f h

end Open

end Shiftgate.Securestore.Collection
