import Shiftgate.Library.RevisionLog
import Shiftgate.Securestore.Collection
import Shiftgate.Securestore.KeyRecovery

/-! What the files of a collection hold. The journal is a list of lines and an unterminated rest;
replaying it over the snapshot is the replay of a numbered log. `Durable` says what a re-open finds.
-/

namespace Shiftgate.Securestore.Collection

open Library List LogEntry

variable {T : Type} {env : Env T}

structure Mutation (T : Type) where
  id : String
  value : Option T

namespace Mutation

def op (m : Mutation T) : Op := if m.value.isSome then .put else .delete

def apply (m : Mutation T) (items : Items T) : Items T := items.set m.id m.value

theorem apply_apply (m : Mutation T) (items : Items T) :
    m.apply (m.apply items) = m.apply items := by
  funext id
  simp only [apply, Items.set]
  split <;> rfl

end Mutation

theorem Items.set_other (items : Items T) {id id' : String} (value : Option T) (h : id' ≠ id) :
    items.set id value id' = items id' := by
  simp [Items.set, h]

theorem Items.set_set_self (items : Items T) (id : String) (value : Option T) :
    (items.set id value).set id (items id) = items := by
  funext id'
  simp only [Items.set]
  split <;> simp_all

structure Logged (T : Type) where
  line : Bytes
  revision : UInt64
  mutation : Mutation T

def Logged.entry (l : Logged T) : LogEntry Nat (Items T) := ⟨l.revision.toNat, l.mutation.apply⟩

def Logged.Written (env : Env T) (l : Logged T) : Prop :=
  l.mutation.id ≠ "" ∧ ∃ keyVersion nonce,
    journalLine env keyVersion nonce l.revision l.mutation.op l.mutation.id l.mutation.value =
      .ok (l.line ++ [newline])

theorem journalLine_ok {keyVersion : UInt32} {nonce : Nonce} {revision : UInt64} {op : Op}
    {id : String} {value : Option T} {line : Bytes}
    (h : journalLine env keyVersion nonce revision op id value = .ok line) :
    ∃ key ciphertext, env.workloadKey keyVersion = some key ∧
      encrypt env.primitives key.val systemMetadataKeyID "metadata-collection-entry" nonce
        ((value.map env.marshalValue).getD []) (entryAad env revision op.text id) =
          .ok ciphertext ∧
      line = env.marshalEntry ⟨1, keyVersion, revision, op.text, id, nonce.val, ciphertext⟩ ++
        [newline] := by
  unfold journalLine at h
  split at h
  · cases h
  · rename_i key hkey
    split at h
    · cases h
    · rename_i ciphertext hseal
      cases h
      exact ⟨key, ciphertext, hkey, hseal, rfl⟩

variable {l : Logged T} {bytes : Bytes} {data : Data T}

theorem Logged.Written.newline_not_mem (h : l.Written env) : newline ∉ l.line := by
  obtain ⟨-, keyVersion, nonce, hline⟩ := h
  obtain ⟨key, ciphertext, -, -, heq⟩ := journalLine_ok hline
  rw [append_cancel_right heq]
  exact env.newline_not_mem _

theorem Logged.Written.line_ne_nil (h : l.Written env) : l.line ≠ [] := by
  obtain ⟨-, keyVersion, nonce, hline⟩ := h
  obtain ⟨key, ciphertext, -, -, heq⟩ := journalLine_ok hline
  rw [append_cancel_right heq]
  exact env.marshalEntry_ne_nil _

theorem Logged.Written.replayLine (h : l.Written env) (data : Data T) :
    replayLine env data l.line = if l.revision < data.revision then .covered
      else .applied { revision := l.revision, items := l.mutation.apply data.items } := by
  obtain ⟨hid, keyVersion, nonce, hline⟩ := h
  obtain ⟨key, ciphertext, hkey, hseal, heq⟩ := journalLine_ok hline
  have hopen := decrypt_encrypt hseal
  have hop : l.mutation.op.text = "put" ∨ l.mutation.op.text = "delete" := by
    cases l.mutation.op <;> simp [Op.text]
  rw [append_cancel_right heq]
  unfold Collection.replayLine
  rw [env.unmarshalEntry_marshalEntry]
  have hvalid : ¬((1 : Nat) ≠ 1 ∨
      (l.mutation.op.text ≠ "put" ∧ l.mutation.op.text ≠ "delete") ∨ l.mutation.id = "") := by
    tauto
  simp only [if_neg hvalid]
  split
  · rfl
  · have hplain : openEntry env ⟨1, keyVersion, l.revision, l.mutation.op.text, l.mutation.id,
        nonce.val, ciphertext⟩ = some ((l.mutation.value.map env.marshalValue).getD []) := by
      simp [openEntry, hkey, nonce.property, hopen, Except.toOption]
    rw [hplain]
    unfold Mutation.op Mutation.apply at *
    cases hvalue : l.mutation.value with
    | none => simp [Op.text]
    | some value => simp [Op.text, env.unmarshalValue_marshalValue]

def Files.base (files : Files T) : Nat × Items T :=
  match files.snapshot with
  | none => (0, fun _ => none)
  | some data => (data.revision.toNat, data.items)

def Files.recovered (files : Files T) (log : List (Logged T)) : Nat × Items T :=
  LogEntry.replay files.base (log.map Logged.entry)

def logBytes (log : List (Logged T)) : Bytes := terminated newline (log.map Logged.line)

theorem replayLines_log {log : List (Logged T)} (hlog : ∀ l ∈ log, l.Written env) (tail : Bytes)
    (offset : Nat) (data : Data T) (n : Nat) :
    let r := replayLines env offset (log.map Logged.line ++ [tail]) data n
    (r.data.revision.toNat, r.data.items) =
        replay (data.revision.toNat, data.items) (log.map Logged.entry) ∧
      r.damaged = false ∧
      r.tornTail = if tail = [] then none else some (offset + (logBytes log).length) := by
  induction log generalizing offset data n with
  | nil =>
    rw [map_nil, nil_append, replayLines]
    split
    · simp [replayLines]
    · simp [logBytes]
  | cons l rest ih =>
    have hl : l.Written env := hlog l mem_cons_self
    have ih' := ih fun l' hl' => hlog l' (mem_cons_of_mem _ hl')
    have hmore : rest.map Logged.line ++ [tail] ≠ [] := by simp
    have hlength : offset + (logBytes (l :: rest)).length =
        offset + l.line.length + 1 + (logBytes rest).length := by
      simp [logBytes]
      omega
    rw [map_cons, cons_append, replayLines, if_neg hl.line_ne_nil, if_neg hmore,
      hl.replayLine, map_cons, replay, hlength]
    have hlt : l.revision < data.revision ↔ l.entry.revision < data.revision.toNat :=
      UInt64.lt_iff_toNat_lt
    by_cases hcovered : l.revision < data.revision
    · rw [if_pos hcovered, if_pos (hlt.mp hcovered)]
      exact ih' _ _ _
    · rw [if_neg hcovered, if_neg (mt hlt.mpr hcovered)]
      exact ih' _ _ _

structure Stored (env : Env T) (files : Files T) (log : List (Logged T)) (tail : Bytes) :
    Prop where
  bytes : files.journal.getD [] = logBytes log ++ tail
  unterminated : newline ∉ tail
  written : ∀ l ∈ log, l.Written env

/-- A re-open finds `items` at `revision`, and no line is newer than that. -/
structure Found (env : Env T) (files : Files T) (log : List (Logged T)) (tail : Bytes)
    (revision : Nat) (items : Items T) : Prop extends Stored env files log tail where
  recovered : files.recovered log = (revision, items)
  newest : ∀ l ∈ log, l.revision.toNat ≤ revision
  unnamed : items "" = none

/-- Every line is older than the data, or of its age and already in it. -/
def Absorbs (data : Data T) (log : List (Logged T)) : Prop :=
  ∀ l ∈ log, l.revision.toNat < data.revision.toNat ∨
    l.revision.toNat = data.revision.toNat ∧ l.mutation.apply data.items = data.items

def Durable (env : Env T) (files : Files T) (revision : Nat) (items : Items T) : Prop :=
  ∃ log tail, Found env files log tail revision items

namespace Stored

variable {files : Files T} {log : List (Logged T)} {tail : Bytes}

section

variable (h : Stored env files log tail)

include h

theorem splitOn : (files.journal.getD []).splitOn newline = log.map Logged.line ++ [tail] := by
  rw [h.bytes, logBytes, splitOn_terminated _ h.unterminated]
  simp only [mem_map, forall_exists_index, and_imp, forall_apply_eq_imp_iff₂]
  exact fun l hl => (h.written l hl).newline_not_mem

theorem tail_eq_nil (hlast : ∀ b ∈ (files.journal.getD []).getLast?, b = newline) : tail = [] := by
  by_contra hne
  have hb : tail.getLast hne ∈ (files.journal.getD []).getLast? := by
    rw [h.bytes, getLast?_append_of_ne_nil _ hne, getLast?_eq_getLast_of_ne_nil hne]
    rfl
  exact h.unterminated (hlast _ hb ▸ getLast_mem hne)

theorem withTail (hbytes : newline ∉ bytes) :
    Stored env { files with journal := some (logBytes log ++ bytes) } log bytes :=
  ⟨rfl, hbytes, h.written⟩

end

end Stored

namespace Found

variable {files : Files T} {log : List (Logged T)} {tail : Bytes} {revision : Nat}
  {items : Items T}

section

variable (h : Found env files log tail revision items)

include h

theorem withTail (hbytes : newline ∉ bytes) :
    Found env { files with journal := some (logBytes log ++ bytes) } log bytes revision items where
  toStored := h.toStored.withTail hbytes
  recovered := h.recovered
  newest := h.newest
  unnamed := h.unnamed

theorem appended (hl : l.Written env) (hnew : revision ≤ l.revision.toNat) :
    Found env { files with journal := some (logBytes (log ++ [l])) } (log ++ [l]) []
      l.revision.toNat (l.mutation.apply items) where
  bytes := by simp
  unterminated := by simp
  written := by
    intro l' hl'
    rcases mem_append.mp hl' with hold | hlast
    · exact h.written l' hold
    · exact (mem_singleton.mp hlast) ▸ hl
  recovered := by
    have hbefore : replay files.base (log.map Logged.entry) = (revision, items) :=
      h.recovered
    show replay files.base ((log ++ [l]).map Logged.entry) = _
    rw [map_append, map_singleton,
      replay_concat (by rw [hbefore]; exact hnew), hbefore]
    rfl
  newest := by
    intro l' hl'
    rcases mem_append.mp hl' with hold | hlast
    · exact (h.newest l' hold).trans hnew
    · rw [mem_singleton.mp hlast]
  unnamed := by
    rw [Mutation.apply, Items.set_other _ _ hl.1.symm]
    exact h.unnamed

theorem withSnapshot (hunnamed : data.items "" = none) (habsorbed : Absorbs data log) :
    Found env { files with snapshot := some data } log tail data.revision.toNat data.items where
  bytes := h.bytes
  unterminated := h.unterminated
  written := h.written
  recovered := by
    apply replay_absorbed
    simp only [mem_map, forall_exists_index, and_imp, forall_apply_eq_imp_iff₂]
    exact habsorbed
  newest := fun l hl => (habsorbed l hl).elim le_of_lt fun h => le_of_eq h.1
  unnamed := hunnamed

end

end Found

theorem found_snapshot {files : Files T} (hsnapshot : files.snapshot = some data)
    (hjournal : files.journal = none) (hunnamed : data.items "" = none) :
    Found env files [] [] data.revision.toNat data.items where
  bytes := by simp [hjournal, logBytes]
  unterminated := by simp
  written := by simp
  recovered := by simp [Files.recovered, Files.base, hsnapshot]
  newest := by simp
  unnamed := hunnamed

theorem durable_empty : Durable env { snapshot := none, journal := none } 0 fun _ => none :=
  ⟨[], [], ⟨⟨by simp [logBytes], by simp, by simp⟩, rfl, by simp, rfl⟩⟩

end Shiftgate.Securestore.Collection
