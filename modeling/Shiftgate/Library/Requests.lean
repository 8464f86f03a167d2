import Mathlib.Tactic

/-! Requests of one party to another over a network that delays and loses messages. A request gets
its number when it is sent; it may be served at any later time, once, also after the party that sent
it has given up waiting. -/

namespace Shiftgate.Library

structure Request (C R : Type) where
  call : C
  reply : Option R

abbrev Requests (C R : Type) := List (Request C R)

namespace Requests

variable {C R : Type} {rs : Requests C R} {k j : Nat} {call : C} {r : R}

def send (rs : Requests C R) (call : C) : Requests C R := rs ++ [⟨call, none⟩]

def pending (rs : Requests C R) (k : Nat) : Option C :=
  match rs[k]? with
  | some ⟨call, none⟩ => some call
  | _ => none

def reply (rs : Requests C R) (k : Nat) : Option R := (rs[k]?).bind (·.reply)

def answer (rs : Requests C R) (k : Nat) (r : R) : Requests C R :=
  rs.modify k fun request => { request with reply := some r }

def Asks (rs : Requests C R) (k : Nat) (call : C) : Prop := ∃ reply, rs[k]? = some ⟨call, reply⟩

theorem pending_eq_some : rs.pending k = some call ↔ rs[k]? = some ⟨call, none⟩ := by
  unfold pending
  split
  · rename_i found h
    simp [h]
  · rename_i h
    refine ⟨nofun, fun hk => ?_⟩
    exact absurd hk (by simpa using h call)

theorem Asks.of_pending (h : rs.pending k = some call) : rs.Asks k call :=
  ⟨none, pending_eq_some.mp h⟩

theorem Asks.unique {call' : C} (h : rs.Asks k call) (h' : rs.Asks k call') : call = call' := by
  obtain ⟨r, hr⟩ := h
  obtain ⟨r', hr'⟩ := h'
  cases hr.symm.trans hr'
  rfl

theorem Asks.lt_length (h : rs.Asks k call) : k < rs.length := by
  obtain ⟨r, hr⟩ := h
  exact (List.getElem?_eq_some_iff.mp hr).1

theorem Asks.send (h : rs.Asks k call) (other : C) : (rs.send other).Asks k call := by
  have hlt := h.lt_length
  obtain ⟨r, hr⟩ := h
  exact ⟨r, (List.getElem?_append_left hlt).trans hr⟩

theorem asks_send (rs : Requests C R) (call : C) : (rs.send call).Asks rs.length call :=
  ⟨none, by simp [Requests.send]⟩

theorem Asks.answer (h : rs.Asks j call) (k : Nat) (r : R) : (rs.answer k r).Asks j call := by
  obtain ⟨found, hfound⟩ := h
  simp only [Asks, Requests.answer, List.getElem?_modify, hfound]
  by_cases hk : k = j
  · exact ⟨some r, by simp [hk]⟩
  · exact ⟨found, by simp [hk]⟩

theorem reply_send (h : k < rs.length) (call : C) : (rs.send call).reply k = rs.reply k := by
  simp [reply, Requests.send, List.getElem?_append_left h]

@[simp] theorem reply_send_length (rs : Requests C R) (call : C) :
    (rs.send call).reply rs.length = none := by
  simp [reply, Requests.send]

theorem reply_answer (rs : Requests C R) (k j : Nat) (r : R) :
    (rs.answer k r).reply j = if k = j then (rs[j]?).map fun _ => r else rs.reply j := by
  simp only [Requests.answer, reply, List.getElem?_modify]
  cases rs[j]? with
  | none => simp
  | some request => by_cases h : k = j <;> simp [h]

theorem reply_of_answer {found : R} (h : (rs.answer k r).reply j = some found) :
    rs.reply j = some found ∨ k = j ∧ found = r := by
  rw [reply_answer] at h
  split_ifs at h with hk
  · obtain ⟨-, -, heq⟩ := Option.map_eq_some_iff.mp h
    exact .inr ⟨hk, heq.symm⟩
  · exact .inl h

theorem reply_of_send {found : R} (h : (rs.send call).reply j = some found) :
    rs.reply j = some found := by
  by_cases hj : j < rs.length
  · rwa [reply_send hj] at h
  · simp only [reply, Requests.send] at h
    by_cases heq : j = rs.length
    · simp [heq] at h
    · rw [List.getElem?_eq_none (by simp; omega)] at h
      cases h

end Requests

end Shiftgate.Library
