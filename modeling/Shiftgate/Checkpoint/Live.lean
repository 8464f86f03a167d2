import Shiftgate.Library.Runs

/-! Live checkpoints (`internal/checkpoint/live.go`): pre-copy passes over a running process, and
the final dump. A pre-dump clears the dirty pages also when the pass fails after it. -/

namespace Shiftgate.Checkpoint.Live

open Library

variable {Page Value : Type}

structure Pass (Page Value : Type) where
  index : Nat
  parent : Option Nat
  images : Page → Option Value

structure Manifest (Page Value : Type) where
  passes : List (Pass Page Value)
  parent : Option Nat
  images : Page → Option Value

/-- `whole` is whether CRIU writes every page when it has no parent, `attempts` counts the passes
begun, and `saved` has the manifest and the memory at the freeze. -/
structure Session (Page Value : Type) where
  whole : Bool
  memory : Page → Value
  dirty : Page → Bool
  passes : List (Pass Page Value)
  passLimit : Nat
  originallyRunning : Bool
  passFailed : Bool
  closed : Bool
  attempts : Nat
  saved : Option (Manifest Page Value × (Page → Value))

/-- Where a pass fails; a pre-dump can fail after it has cleared the dirty pages. -/
inductive PassFault where
  | mkdir
  | preDump (cleared : Bool)
  | captureDirectory
  | requireKeyVersion

inductive FinalizeFault where
  | pause
  | dump
  | beforeSaved
  | afterSaved

inductive Move (Page Value : Type) where
  | write (memory : Page → Value) (touched : Page → Bool)
  | pass (fault : Option PassFault)
  | finalize (fault : Option FinalizeFault)
  | abort

namespace Session

/-- The pages dirtied since the last pre-dump, successful or not, or all. -/
def written (s : Session Page Value) (parent : Option Nat) (page : Page) : Option Value :=
  if s.whole ∧ parent = none ∨ s.dirty page then some (s.memory page) else none

def previous (s : Session Page Value) : Option Nat :=
  if 0 < s.passes.length then s.passes[s.passes.length - 1]?.map (·.index) else none

def pass (s : Session Page Value) (fault : Option PassFault) : Session Page Value :=
  if s.closed ∨ s.passFailed ∨ !s.originallyRunning ∨ s.passLimit ≤ s.passes.length then s
  else
    let begun := { s with attempts := s.attempts + 1 }
    let index := s.passes.length + 1
    match fault with
    | some .mkdir | some (.preDump false) => { begun with passFailed := true }
    | some (.preDump true) | some .captureDirectory | some .requireKeyVersion =>
      { begun with passFailed := true, dirty := fun _ => false }
    | none => { begun with
        dirty := fun _ => false, passes := s.passes ++ [⟨index, s.previous, s.written s.previous⟩] }

def finalize (s : Session Page Value) (fault : Option FinalizeFault) : Session Page Value :=
  if s.closed ∨ s.passFailed then s
  else
    let manifest := (⟨s.passes, s.previous, s.written s.previous⟩, s.memory)
    match fault with
    | some .pause =>
      -- A workload that was not running is not frozen.
      { s with closed := true, saved := if s.originallyRunning then s.saved else some manifest }
    | some .dump | some .beforeSaved => { s with closed := true }
    | some .afterSaved | none => { s with closed := true, saved := some manifest }

def step [DecidableEq Value] (s : Session Page Value) :
    Move Page Value → Option (Session Page Value)
  | .write memory touched => some { s with
      memory
      dirty := fun page => s.dirty page || touched page || decide (memory page ≠ s.memory page) }
  | .pass fault => some (s.pass fault)
  | .finalize fault => some (s.finalize fault)
  | .abort => some (if s.closed then s else { s with closed := true })

def beginLive (whole : Bool) (memory : Page → Value) (dirty : Page → Bool) (passLimit : Nat)
    (originallyRunning : Bool) : Session Page Value :=
  ⟨whole, memory, dirty, [], passLimit, originallyRunning, false, false, 0, none⟩

end Session

def before (n : Nat) : Option Nat := if n = 0 then none else some n

/-- The memory that image sets give when each is laid over those before it. -/
def overlay (sets : List (Page → Option Value)) (page : Page) : Option Value :=
  sets.foldl (fun below images => (images page).or below) none

@[simp] theorem overlay_append (sets : List (Page → Option Value)) (images : Page → Option Value)
    (page : Page) : overlay (sets ++ [images]) page = (images page).or (overlay sets page) := by
  simp [overlay]

def Chained (passes : List (Pass Page Value)) : Prop :=
  ∀ k pass, passes[k]? = some pass → pass.index = k + 1 ∧ pass.parent = before k

theorem Chained.append {passes : List (Pass Page Value)} (h : Chained passes)
    (images : Page → Option Value) :
    Chained (passes ++ [⟨passes.length + 1, before passes.length, images⟩]) := by
  intro k pass hk
  rw [List.getElem?_append] at hk
  split at hk
  · exact h k pass hk
  · obtain ⟨hlt, rfl⟩ := List.getElem?_eq_some_iff.mp hk
    obtain rfl : k = passes.length := by
      simp only [List.length_singleton] at hlt
      omega
    simp

structure Manifest.Whole (m : Manifest Page Value) (n : Nat) (memory : Page → Value) : Prop where
  length : m.passes.length = n
  chained : Chained m.passes
  parent : m.parent = before n
  complete : overlay (m.passes.map (·.images) ++ [m.images]) = fun page => some (memory page)

/-- Until a pass fails, every page is dirty or given by the passes so far, unless CRIU will write
every page. -/
structure Session.Sound (s : Session Page Value) : Prop where
  chained : Chained s.passes
  counted : s.passFailed = false → s.passes.length = s.attempts
  clean : s.passFailed = false → ∀ page, s.dirty page = false → s.whole ∧ s.passes = [] ∨
    overlay (s.passes.map (·.images)) page = some (s.memory page)
  unsaved : s.closed = false → s.saved = none
  saved : ∀ m memory, s.saved = some (m, memory) → m.Whole s.attempts memory

namespace Session

variable {s : Session Page Value}

theorem previous_eq (h : Chained s.passes) : s.previous = before s.passes.length := by
  unfold previous before
  by_cases hpos : 0 < s.passes.length
  · have hlast := List.getElem?_eq_getElem (l := s.passes) (i := s.passes.length - 1) (by omega)
    rw [if_pos hpos, if_neg (by omega), hlast, Option.map_some, (h _ _ hlast).1,
      Nat.sub_add_cancel hpos]
  · rw [if_neg hpos, if_pos (by omega)]

theorem Sound.written_complete (h : s.Sound) (hfailed : s.passFailed = false) (page : Page) :
    (s.written (before s.passes.length) page).or (overlay (s.passes.map (·.images)) page) =
      some (s.memory page) := by
  unfold written
  split
  · rfl
  · rename_i hnot
    rw [not_or, Bool.not_eq_true] at hnot
    obtain ⟨hwhole, hnil⟩ | hover := h.clean hfailed page hnot.2
    · simp [hwhole, hnil, before] at hnot
    · exact hover

theorem Sound.pass (h : s.Sound) (fault : Option PassFault) : (s.pass fault).Sound := by
  unfold Session.pass
  split
  · exact h
  · rename_i hgo
    simp only [not_or, Bool.not_eq_true] at hgo
    obtain ⟨hopen, hfailed, -, -⟩ := hgo
    have hunsaved := h.unsaved hopen
    simp only [previous_eq h.chained]
    split
    -- A failed pass keeps the chain, and nothing goes on from it.
    iterate 5 exact ⟨h.chained, nofun, nofun, fun _ => hunsaved, by simp [hunsaved]⟩
    refine ⟨h.chained.append _, fun _ => ?_, fun _ page _ => .inr ?_, fun _ => hunsaved,
      by simp [hunsaved]⟩
    · simp [h.counted hfailed]
    · simpa using h.written_complete hfailed page

theorem Sound.whole_manifest (h : s.Sound) (hfailed : s.passFailed = false) :
    Manifest.Whole ⟨s.passes, s.previous, s.written s.previous⟩ s.attempts s.memory := by
  rw [previous_eq h.chained]
  refine ⟨h.counted hfailed, h.chained, by rw [h.counted hfailed], ?_⟩
  funext page
  rw [overlay_append]
  exact h.written_complete hfailed page

theorem Sound.finalize (h : s.Sound) (fault : Option FinalizeFault) : (s.finalize fault).Sound := by
  unfold Session.finalize
  split
  · exact h
  · rename_i hgo
    simp only [not_or, Bool.not_eq_true] at hgo
    obtain ⟨hopen, hfailed⟩ := hgo
    have hnone : Sound { s with closed := true } :=
      ⟨h.chained, h.counted, h.clean, nofun, h.saved⟩
    have hsome : Sound { s with
        closed := true
        saved := some (⟨s.passes, s.previous, s.written s.previous⟩, s.memory) } := by
      refine ⟨h.chained, h.counted, h.clean, nofun, fun m memory hm => ?_⟩
      cases hm
      exact h.whole_manifest hfailed
    split
    · split
      · exact hnone
      · exact hsome
    iterate 2 exact hnone
    iterate 2 exact hsome

theorem Sound.step [DecidableEq Value] (h : s.Sound) {move : Move Page Value}
    {t : Session Page Value} (hstep : s.step move = some t) : t.Sound := by
  cases move with
  | write memory touched =>
    cases hstep
    refine ⟨h.chained, h.counted, fun hfailed page hclean => ?_, h.unsaved, h.saved⟩
    simp only [Bool.or_eq_false_iff, decide_eq_false_iff_not, not_not] at hclean ⊢
    rw [hclean.2]
    exact h.clean hfailed page hclean.1.1
  | pass fault =>
    cases hstep
    exact h.pass fault
  | finalize fault =>
    cases hstep
    exact h.finalize fault
  | abort =>
    cases hstep
    split
    · exact h
    · exact ⟨h.chained, h.counted, h.clean, nofun, h.saved⟩

/-- In every run, whatever fails and whatever the process writes: a saved manifest has every pass
that was begun, each with the one before it as its parent, and its image sets give the memory at the
freeze. At the start every page is dirty, unless CRIU writes every page where it has no parent. -/
theorem saved_manifest_whole [DecidableEq Value] (whole : Bool) (memory : Page → Value)
    (dirty : Page → Bool) (passLimit : Nat) (originallyRunning : Bool)
    (hfirst : whole ∨ ∀ page, dirty page) (s : Session Page Value)
    (hrun : Reachable step (beginLive whole memory dirty passLimit originallyRunning) s)
    (m : Manifest Page Value) (frozen : Page → Value) (hsaved : s.saved = some (m, frozen)) :
    m.Whole s.attempts frozen := by
  have hsound : s.Sound := by
    refine hrun.invariant Sound (fun _ _ _ h hstep => h.step hstep) ?_
    refine ⟨nofun, fun _ => rfl, fun _ page hclean => ?_, fun _ => rfl, nofun⟩
    obtain hwhole | hdirty := hfirst
    · exact .inl ⟨hwhole, rfl⟩
    · simp [beginLive, hdirty page] at hclean
  exact hsound.saved m frozen hsaved

theorem two_passes_whole : ∃ s m frozen,
    Reachable step (beginLive false (fun _ : Bool => 0) (fun _ => true) 2 true) s ∧
      s.saved = some (m, frozen) ∧ m.Whole 2 frozen ∧ frozen = fun page => cond page 5 3 :=
  let moves := [.pass none, .write (cond · 4 0) fun _ => true, .pass none,
    .write (cond · 5 3) fun _ => false, .finalize none]
  have hrun : Reachable step _ _ := ⟨moves, rfl⟩
  ⟨_, _, _, hrun, rfl, saved_manifest_whole _ _ _ _ _ (.inr fun _ => rfl) _ hrun _ _ rfl, rfl⟩

end Session

end Shiftgate.Checkpoint.Live
