import Shiftgate.Library.Runs

/-! Calls that run at once on shared state. The commands of different calls interleave in any order,
and a crash ends every call and leaves what is durable. The history records what the callers see. -/

namespace Shiftgate.Library

open List Option

/-- A program that asks for one command after another and goes on with each reply. -/
inductive Thread {C : Type} (R : C → Type) (α : Type) where
  | done (value : α)
  | ask (command : C) (next : R command → Thread R α)

namespace Thread

variable {C : Type} {R : C → Type} {α β : Type}

def bind : Thread R α → (α → Thread R β) → Thread R β
  | done a, f => f a
  | ask c next, f => ask c fun r => (next r).bind f

instance : Monad (Thread R) where
  pure := done
  bind := bind

def perform (c : C) : Thread R (R c) := ask c done

def asks : Thread R α → Option C
  | done _ => none
  | ask c _ => some c

/-- The program ends after at most so many commands. -/
def Ends : Nat → Thread R α → Prop
  | _, done _ => True
  | 0, ask _ _ => False
  | k + 1, ask _ next => ∀ r, (next r).Ends k

theorem Ends.done (k : Nat) (a : α) : (done a : Thread R α).Ends k := by
  cases k <;> trivial

theorem Ends.mono {j k : Nat} {t : Thread R α} (h : t.Ends j) (hle : j ≤ k) : t.Ends k := by
  induction t generalizing j k with
  | done a => exact .done k a
  | ask c next ih =>
    cases j with
    | zero => exact h.elim
    | succ j =>
      cases k with
      | zero => omega
      | succ k => exact fun r => ih r (h r) (by omega)

theorem Ends.bind {j k : Nat} {t : Thread R α} {f : α → Thread R β} (ht : t.Ends j)
    (hf : ∀ a, (f a).Ends k) : (t >>= f).Ends (j + k) := by
  induction t generalizing j with
  | done a => exact (hf a).mono (by omega)
  | ask c next ih =>
    cases j with
    | zero => exact ht.elim
    | succ j =>
      rw [Nat.succ_add]
      exact fun r => ih r (ht r)

def alone {S : Type} (serve : S → (c : C) → S × R c) : Thread R α → S → S × α
  | done a, s => (s, a)
  | ask c next, s => (next (serve s c).2).alone serve (serve s c).1

@[simp] theorem pure_eq_done (a : α) : (pure a : Thread R α) = done a := rfl

@[simp] theorem done_bind (a : α) (f : α → Thread R β) : (done a >>= f) = f a := rfl

@[simp] theorem ask_bind (c : C) (next : R c → Thread R α) (f : α → Thread R β) :
    (ask c next >>= f) = ask c fun r => next r >>= f := rfl

@[simp] theorem alone_done {S : Type} (serve : S → (c : C) → S × R c) (a : α) (s : S) :
    (done a : Thread R α).alone serve s = (s, a) := rfl

@[simp] theorem alone_ask {S : Type} (serve : S → (c : C) → S × R c) (c : C)
    (next : R c → Thread R α) (s : S) :
    (ask c next).alone serve s = (next (serve s c).2).alone serve (serve s c).1 := rfl

theorem alone_bind {S : Type} (serve : S → (c : C) → S × R c) (t : Thread R α)
    (f : α → Thread R β) (s : S) :
    (t >>= f).alone serve s = (f (t.alone serve s).2).alone serve (t.alone serve s).1 := by
  induction t generalizing s with
  | done a => rfl
  | ask c next ih => exact ih _ _

@[simp] theorem perform_bind (c : C) (f : R c → Thread R β) : (perform c >>= f) = ask c f := rfl

end Thread

/-- `serve` is the effect of a command of call `n`, under a choice of the environment, or `none`
when it has to wait; a choice that `fails` makes the command fail. -/
structure Service (S Op A X : Type) {C : Type} (R : C → Type) where
  program : Op → Thread R A
  serve : S → Nat → (c : C) → X → Option (S × R c)
  fails : X → Bool
  restart : S → S

structure Call (Op A : Type) {C : Type} (R : C → Type) where
  op : Op
  thread : Option (Thread R A)

/-- What the callers see, and the failures of the environment. -/
inductive Event (Op A : Type) where
  | invoke (n : Nat) (op : Op)
  | fault (n : Nat)
  | answer (n : Nat) (a : A)
  | crash
  deriving DecidableEq

/-- The shared state, the calls in the order of their beginnings, and the history. -/
structure Pool (S Op A : Type) {C : Type} (R : C → Type) where
  shared : S
  calls : List (Call Op A R)
  history : List (Event Op A)

inductive Move (Op X : Type) where
  | call (op : Op)
  | advance (n : Nat) (x : X)
  | finish (n : Nat)
  | crash

variable {S Op A X C : Type} {R : C → Type}

namespace Pool

def initial (s : S) : Pool S Op A R := ⟨s, [], []⟩

def thread (p : Pool S Op A R) (n : Nat) : Option (Thread R A) := (p.calls[n]?).bind (·.thread)

def asks (p : Pool S Op A R) (n : Nat) : Option C := (p.thread n).bind Thread.asks

def op (p : Pool S Op A R) (n : Nat) : Option Op := (p.calls[n]?).map (·.op)

def setThread (p : Pool S Op A R) (n : Nat) (t : Option (Thread R A)) : List (Call Op A R) :=
  p.calls.modify n fun call => { call with thread := t }

def step (svc : Service S Op A X R) (p : Pool S Op A R) : Move Op X → Option (Pool S Op A R)
  | .call op =>
    some { p with calls := p.calls ++ [⟨op, some (svc.program op)⟩]
                  history := p.history ++ [.invoke p.calls.length op] }
  | .advance n x =>
    match p.thread n with
    | some (.ask c next) =>
      (svc.serve p.shared n c x).map fun served =>
        { shared := served.1
          calls := p.setThread n (some (next served.2))
          history := if svc.fails x then p.history ++ [.fault n] else p.history }
    | _ => none
  | .finish n =>
    match p.thread n with
    | some (.done a) =>
      some { p with calls := p.setThread n none
                    history := p.history ++ [.answer n a] }
    | _ => none
  | .crash =>
    some { shared := svc.restart p.shared
           calls := p.calls.map fun call => { call with thread := none }
           history := p.history ++ [.crash] }

variable {svc : Service S Op A X R} {p q : Pool S Op A R} {n k : Nat} {t : Option (Thread R A)}

variable {u : Thread R A} {o : Op} {move : Move Op X}

theorem thread_lt_length (h : p.thread n = some u) : n < p.calls.length := by
  obtain ⟨call, hcall, -⟩ := bind_eq_some_iff.mp h
  exact (List.getElem?_eq_some_iff.mp hcall).1

theorem op_of_thread (h : p.thread n = some u) : ∃ o, p.op n = some o := by
  obtain ⟨call, hcall, -⟩ := bind_eq_some_iff.mp h
  exact ⟨call.op, by simp [op, hcall]⟩

theorem mem_calls (h : p.thread n = some u) (hop : p.op n = some o) :
    (⟨o, some u⟩ : Call Op A R) ∈ p.calls := by
  obtain ⟨call, hcall, hthread⟩ := bind_eq_some_iff.mp h
  obtain ⟨call', hcall', rfl⟩ := map_eq_some_iff.mp hop
  cases hcall.symm.trans hcall'
  rw [← hthread]
  exact mem_of_getElem? hcall

inductive Moved (svc : Service S Op A X R) (p : Pool S Op A R) : Move Op X → Pool S Op A R → Prop
  | call (op : Op) :
      Moved svc p (.call op)
        ⟨p.shared, p.calls ++ [⟨op, some (svc.program op)⟩],
          p.history ++ [.invoke p.calls.length op]⟩
  | advance {n : Nat} {x : X} {c : C} {next : R c → Thread R A} {s : S} {r : R c}
      (hthread : p.thread n = some (.ask c next))
      (hserve : svc.serve p.shared n c x = some (s, r)) :
      Moved svc p (.advance n x)
        ⟨s, p.setThread n (some (next r)),
          if svc.fails x then p.history ++ [.fault n] else p.history⟩
  | finish {n : Nat} {a : A} (hthread : p.thread n = some (.done a)) :
      Moved svc p (.finish n) ⟨p.shared, p.setThread n none, p.history ++ [.answer n a]⟩
  | crash :
      Moved svc p .crash
        ⟨svc.restart p.shared, p.calls.map fun call => { call with thread := none },
          p.history ++ [.crash]⟩

theorem step_moved (h : step svc p move = some q) : Moved svc p move q := by
  cases move with
  | call op =>
    cases h
    exact .call op
  | advance n x =>
    simp only [step] at h
    split at h
    · rename_i c next hthread
      obtain ⟨⟨s, r⟩, hserve, rfl⟩ := map_eq_some_iff.mp h
      exact .advance hthread hserve
    · cases h
  | finish n =>
    simp only [step] at h
    split at h
    · rename_i a hthread
      cases h
      exact .finish hthread
    · cases h
  | crash =>
    cases h
    exact .crash

section Threads

variable {s : S} {history : List (Event Op A)}

theorem thread_setThread (h : n < p.calls.length) :
    (⟨s, p.setThread n t, history⟩ : Pool S Op A R).thread n = t := by
  simp [thread, setThread, getElem?_eq_getElem h]

theorem thread_setThread_ne (h : k ≠ n) :
    (⟨s, p.setThread n t, history⟩ : Pool S Op A R).thread k = p.thread k := by
  simp [thread, setThread, Ne.symm h]

theorem op_setThread (n k : Nat) (t : Option (Thread R A)) :
    (⟨s, p.setThread n t, history⟩ : Pool S Op A R).op k = p.op k := by
  simp only [op, setThread, getElem?_modify]
  cases p.calls[k]? with
  | none => simp
  | some call => by_cases hk : n = k <;> simp [hk]

theorem thread_append (call : Call Op A R) :
    (⟨s, p.calls ++ [call], history⟩ : Pool S Op A R).thread p.calls.length = call.thread := by
  simp [thread]

theorem thread_append_ne (call : Call Op A R) (h : k ≠ p.calls.length) :
    (⟨s, p.calls ++ [call], history⟩ : Pool S Op A R).thread k = p.thread k := by
  simp only [thread]
  rcases lt_or_gt_of_ne h with hlt | hgt
  · rw [getElem?_append_left hlt]
  · rw [getElem?_eq_none (by simp; omega), getElem?_eq_none (by omega)]

theorem op_append_length (call : Call Op A R) :
    (⟨s, p.calls ++ [call], history⟩ : Pool S Op A R).op p.calls.length = some call.op := by
  simp [op]

theorem op_append (call : Call Op A R) (h : p.op k = some o) :
    (⟨s, p.calls ++ [call], history⟩ : Pool S Op A R).op k = some o := by
  obtain ⟨found, hfound, rfl⟩ := map_eq_some_iff.mp h
  have hlt := (List.getElem?_eq_some_iff.mp hfound).1
  simp [op, getElem?_append_left hlt, hfound]

theorem op_of_append {call : Call Op A R} (h : k ≠ p.calls.length)
    (hop : (⟨s, p.calls ++ [call], history⟩ : Pool S Op A R).op k = some o) : p.op k = some o := by
  simp only [op] at hop ⊢
  rcases lt_or_gt_of_ne h with hlt | hgt
  · rwa [getElem?_append_left hlt] at hop
  · rw [getElem?_eq_none (by simp; omega)] at hop
    cases hop

theorem thread_crash (k : Nat) :
    (⟨s, p.calls.map fun call => { call with thread := none }, history⟩ : Pool S Op A R).thread k =
      none := by
  simp only [thread, getElem?_map]
  cases p.calls[k]? <;> rfl

end Threads

theorem op_crash {k : Nat} (s : S) (history : List (Event Op A)) :
    (⟨s, p.calls.map fun call => { call with thread := none }, history⟩ : Pool S Op A R).op k =
      some o ↔ p.op k = some o := by
  simp only [op, getElem?_map]
  cases p.calls[k]? <;> simp

theorem op_of_exec {moves : List (Move Op X)} (hrun : exec (step svc) p moves = some q)
    (hop : q.op n = some o) : p.op n = some o ∨ .call o ∈ moves := by
  induction moves generalizing p with
  | nil =>
    cases hrun
    exact .inl hop
  | cons move rest ih =>
    obtain ⟨m, hstep, hrest⟩ := exec_cons.mp hrun
    rcases ih hrest with hm | hcall
    · cases step_moved hstep with
      | call op' =>
        by_cases hn : n = p.calls.length
        · rw [hn, op_append_length] at hm
          cases hm
          exact .inr (mem_cons_self ..)
        · exact .inl (op_of_append hn hm)
      | advance hthread hserve | finish hthread => exact .inl (by rwa [op_setThread] at hm)
      | crash => exact .inl ((op_crash _ _).mp hm)
    · exact .inr (mem_cons_of_mem _ hcall)

theorem op_step (hstep : step svc p move = some q) (hop : p.op k = some o) : q.op k = some o := by
  cases step_moved hstep with
  | call op' => exact op_append _ hop
  | advance hthread hserve => rwa [op_setThread]
  | finish hthread => rwa [op_setThread]
  | crash => exact (op_crash _ _).mpr hop

/-- A call under way after a move has just begun, or was under way, with the same program unless it
is the one that moved. -/
theorem thread_origin (hstep : step svc p move = some q) (hthread : q.thread k = some u)
    (hop : q.op k = some o) :
    (move = .call o ∧ k = p.calls.length ∧ u = svc.program o) ∨
      p.op k = some o ∧ ∃ v, p.thread k = some v ∧ (v = u ∨ ∃ x, move = .advance k x) := by
  cases step_moved hstep with
  | call op' =>
    by_cases hk : k = p.calls.length
    · subst hk
      rw [thread_append] at hthread
      rw [op_append_length] at hop
      cases hop
      exact .inl ⟨rfl, rfl, (some.inj hthread).symm⟩
    · rw [thread_append_ne _ hk] at hthread
      obtain ⟨o', ho'⟩ := op_of_thread hthread
      rw [op_append _ ho'] at hop
      cases hop
      exact .inr ⟨ho', u, hthread, .inl rfl⟩
  | @advance n x c next s r hbefore hserve =>
    rw [op_setThread] at hop
    by_cases hk : k = n
    · subst hk
      exact .inr ⟨hop, _, hbefore, .inr ⟨x, rfl⟩⟩
    · rw [thread_setThread_ne hk] at hthread
      exact .inr ⟨hop, u, hthread, .inl rfl⟩
  | @finish n a hbefore =>
    rw [op_setThread] at hop
    by_cases hk : k = n
    · rw [hk, thread_setThread (thread_lt_length hbefore)] at hthread
      cases hthread
    · rw [thread_setThread_ne hk] at hthread
      exact .inr ⟨hop, u, hthread, .inl rfl⟩
  | crash =>
    rw [thread_crash] at hthread
    cases hthread

section Alone

variable {x : X} {serve : S → (c : C) → S × R c}

section

variable (hserve : ∀ s n c, svc.serve s n c x = some (serve s c)) (hfails : svc.fails x = false)

include hserve hfails

theorem exec_thread_alone (hthread : p.thread n = some u) :
    ∃ j q, exec (step svc) p (List.replicate j (.advance n x) ++ [.finish n]) = some q ∧
      q.shared = (u.alone serve p.shared).1 ∧
      q.history = p.history ++ [.answer n (u.alone serve p.shared).2] := by
  induction u generalizing p with
  | done a =>
    refine ⟨0, ⟨p.shared, p.setThread n none, p.history ++ [.answer n a]⟩, ?_, rfl, rfl⟩
    simp [exec, step, hthread]
  | ask c next ih =>
    have hlt := thread_lt_length hthread
    have hstep : step svc p (.advance n x) =
        some ⟨(serve p.shared c).1, p.setThread n (some (next (serve p.shared c).2)),
          p.history⟩ := by
      simp [step, hthread, hserve, hfails]
    obtain ⟨j, q, hrun, hshared, hhistory⟩ := ih _ (thread_setThread hlt)
    refine ⟨j + 1, q, ?_, hshared, hhistory⟩
    rw [replicate_succ, cons_append]
    exact exec_cons.mpr ⟨_, hstep, hrun⟩

theorem exec_call_alone (p : Pool S Op A R) (op : Op) :
    ∃ j q, exec (step svc) p (.call op ::
        (List.replicate j (.advance p.calls.length x) ++ [.finish p.calls.length])) = some q ∧
      q.shared = ((svc.program op).alone serve p.shared).1 ∧
      q.history = p.history ++ [.invoke p.calls.length op,
        .answer p.calls.length ((svc.program op).alone serve p.shared).2] := by
  have hbegun : (⟨p.shared, p.calls ++ [⟨op, some (svc.program op)⟩],
      p.history ++ [.invoke p.calls.length op]⟩ : Pool S Op A R).thread p.calls.length =
      some (svc.program op) := thread_append _
  obtain ⟨j, q, hrun, hshared, hhistory⟩ := exec_thread_alone hserve hfails hbegun
  refine ⟨j, q, exec_cons.mpr ⟨_, rfl, hrun⟩, hshared, ?_⟩
  rw [hhistory, append_assoc]
  rfl

end

end Alone

end Pool

end Shiftgate.Library
