import Shiftgate.Library.Runs

/-! The death watch of a standby over one workload (`agent/standby.go`): the count of passes that
saw both death signals, and what has arrived from the source since. -/

namespace Shiftgate.Failover.Death

open Library

def deathSampleTarget : Nat := 3

inductive Duty where
  | none
  | armed (source : String)
  | failedOver
  deriving DecidableEq

/-- `backedOff` is a pass that skips the duty, with what the control plane has said of the source,
`inconclusive` every other end without a sample. -/
inductive Seen where
  | inconclusive
  | backedOff (online : Bool)
  | heartbeating
  | answered
  | dead (calls fencedOver : Bool)

inductive Event where
  | dead (source : String)
  | alive (source : String)
  | hold (source : String)
  deriving DecidableEq

/-- `pass` is the source in the duty that was read, `log` what happened, newest first. -/
structure Watch where
  duty : Duty
  samples : Nat
  pass : Option String
  log : List Event

def Watch.initial : Watch := ⟨.none, 0, none, []⟩

inductive Action where
  | begin
  | observe (seen : Seen)
  | held (source : String)
  | withdrawn (source : String)
  | restart

def Watch.observe (w : Watch) (source : String) : Seen → Watch
  | .inconclusive | .backedOff false => w
  | .backedOff true => { w with log := .alive source :: w.log }
  | .heartbeating | .answered => { w with samples := 0, log := .alive source :: w.log }
  | .dead calls fencedOver => { w with
      samples := min (w.samples + 1) deathSampleTarget
      log := .dead source :: w.log
      duty := if calls ∧ fencedOver ∧ deathSampleTarget ≤ w.samples + 1 then .failedOver
        else w.duty }

def Watch.step (w : Watch) : Action → Option Watch
  | .begin => match w.pass, w.duty with
    | none, .armed source => some { w with pass := some source }
    | _, _ => none
  | .observe seen => w.pass.map fun source => { w.observe source seen with pass := none }
  | .held source => some { w with
      log := .hold source :: w.log
      duty := if w.duty = .failedOver then .failedOver else .armed source }
  | .withdrawn source => some (if w.duty = .armed source then
      { w with duty := .none, samples := 0 } else w)
  | .restart => some { w with samples := 0, pass := none }

/-- The deaths of the source that nothing from it has contradicted since. -/
def deaths (source : String) (log : List Event) : Nat :=
  (log.takeWhile fun e => e ≠ .alive source ∧ e ≠ .hold source).count (.dead source)

/-- A pass that calls the fencing provider has a sustained observation behind it. -/
def Sustained (w : Watch) : Action → Prop
  | .observe (.dead true _) => ∀ source ∈ w.pass, deathSampleTarget ≤ w.samples + 1 →
      deathSampleTarget ≤ deaths source (.dead source :: w.log)
  | _ => True

/-- A hold arrives, and a backed-off pass finds the source online, only while nothing is counted;
no hold arrives during a pass. -/
def careful (w : Watch) : Action → Bool
  | .held _ => w.samples = 0 && w.pass.isNone
  | .observe (.backedOff true) => w.samples = 0
  | _ => true

structure Sound (w : Watch) : Prop where
  pass : ∀ source ∈ w.pass, w.samples ≤ deaths source w.log
  duty : ∀ source, w.duty = .armed source → w.samples ≤ deaths source w.log
  same : ∀ source ∈ w.pass, ∀ other, w.duty = .armed other → other = source

theorem deaths_dead (source : String) (log : List Event) :
    deaths source (.dead source :: log) = deaths source log + 1 := by
  simp [deaths]

theorem Sound.step {w t : Watch} {a : Action} (h : Sound w) (hcareful : careful w a = true)
    (hstep : w.step a = some t) : Sound t := by
  cases a with
  | begin =>
    simp only [Watch.step] at hstep
    split at hstep
    · rename_i hduty
      cases hstep
      refine ⟨?_, h.duty, ?_⟩
      · rintro _ ⟨⟩
        exact h.duty _ hduty
      · rintro _ ⟨⟩ other hother
        cases hduty.symm.trans hother
        rfl
    · cases hstep
  | observe seen =>
    obtain ⟨source, hpass, rfl⟩ := Option.map_eq_some_iff.mp hstep
    refine ⟨nofun, fun other hother => ?_, nofun⟩
    cases seen with
    | inconclusive => exact h.duty other hother
    | backedOff online =>
      cases online with
      | false => exact h.duty other hother
      | true => simp [Watch.observe, of_decide_eq_true hcareful]
    | heartbeating | answered => exact Nat.zero_le _
    | dead calls fencedOver =>
      simp only [Watch.observe] at hother ⊢
      split_ifs at hother
      obtain rfl := h.same source hpass other hother
      rw [deaths_dead]
      exact (min_le_left _ _).trans (Nat.succ_le_succ (h.duty other hother))
  | held source =>
    cases hstep
    simp only [careful, Bool.and_eq_true, decide_eq_true_eq, Option.isNone_iff_eq_none] at hcareful
    exact ⟨by simp [hcareful.2], by simp [hcareful.1], by simp [hcareful.2]⟩
  | withdrawn source =>
    cases hstep
    split_ifs
    · exact ⟨fun _ _ => Nat.zero_le _, nofun, nofun⟩
    · exact h
  | restart =>
    cases hstep
    exact ⟨nofun, fun _ _ => Nat.zero_le _, nofun⟩

/-- In every run that meets the condition, every call of the fencing provider is sustained. -/
theorem fencing_needs_sustained_death {actions : List Action}
    (hcareful : Meets Watch.step (fun w a => careful w a = true) .initial actions) :
    Meets Watch.step Sustained .initial actions := by
  refine .of_invariant Sound (fun _ _ _ h hc hs => h.step hc hs) (fun w a h _ => ?_)
    ⟨nofun, nofun, nofun⟩ hcareful
  unfold Sustained
  split
  · intro source hpass hreached
    rw [deaths_dead]
    exact hreached.trans (Nat.succ_le_succ (h.pass source hpass))
  · trivial

def death : List Action := [.begin, .observe (.dead true false)]

theorem fencing_needs_sustained_death_sample :
    Meets Watch.step Sustained .initial (.held "a" :: death ++ death ++ death) :=
  fencing_needs_sustained_death (by decide)

/-- The source pushes after two samples, and the next one fences it. -/
theorem hold_keeps_death_count : ∃ w, exec Watch.step .initial
    (.held "a" :: death ++ death ++ [.held "a", .begin]) = some w ∧
      ¬ Sustained w (.observe (.dead true false)) :=
  ⟨_, rfl, fun h => absurd (h "a" rfl (by decide)) (by decide)⟩

end Shiftgate.Failover.Death
