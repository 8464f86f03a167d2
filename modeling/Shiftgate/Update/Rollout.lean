import Mathlib.Data.List.Sort

/-! Staged rollouts of `internal/update`. A time is the nanoseconds since the zero time. -/

namespace Shiftgate.Update

structure RolloutStage where
  startsAt : Int
  percent : Int
  deriving DecidableEq

structure Rollout where
  stages : List RolloutStage

structure RolloutStatus where
  cohort : Nat
  buckets : Nat
  percentOpen : Int
  eligible : Bool
  nextStageAt : Option Int

def cohortBuckets : Nat := 10000

def maxRolloutStages : Nat := 32

/-- In place of `Validate`'s two variables: the stage before, if there is one. -/
def checkStages : Nat → Option RolloutStage → List RolloutStage → Except String Unit
  | _, _, [] => .ok ()
  | index, previous, stage :: rest =>
    if stage.startsAt = 0 then
      .error s!"stage {index} requires a start time"
    else if stage.percent < 0 ∨ 100 < stage.percent then
      .error s!"stage {index} percent {stage.percent} is outside 0..100"
    else if previous.any (stage.startsAt ≤ ·.startsAt) then
      .error s!"stage {index} does not start after the previous stage"
    else if previous.any (stage.percent < ·.percent) then
      .error "a rollout may not reduce the percentage it already opened"
    else checkStages (index + 1) (some stage) rest

def scanStages (now percent : Int) : List RolloutStage → Int
  | [] => percent
  | stage :: rest => if now < stage.startsAt then percent else scanStages now stage.percent rest

/-- `digest` stands for the first eight bytes of SHA-256. -/
def cohort (digest : String → UInt64) (machineID version : String) : Nat :=
  (digest (machineID ++ "\x00" ++ version)).toNat % cohortBuckets

namespace Rollout

def normalize (rollout : Rollout) : Rollout where
  stages := (rollout.stages.map fun stage =>
    { stage with startsAt := stage.startsAt - stage.startsAt % 1000000000 }).insertionSort
      (·.startsAt ≤ ·.startsAt)

/-- The source normalizes the plan in place: an accepted plan is `normalize` from then on. -/
def validate (rollout : Rollout) : Except String Unit :=
  let stages := rollout.normalize.stages
  if maxRolloutStages < stages.length then
    .error s!"a rollout may define at most {maxRolloutStages} stages, got {stages.length}"
  else checkStages 0 none stages

def percentAt (rollout : Rollout) (now : Int) : Int :=
  if rollout.stages.isEmpty then 100 else scanStages now 0 rollout.stages

def nextStageAfter (rollout : Rollout) (now : Int) : Option Int :=
  (rollout.stages.find? (now < ·.startsAt)).map (·.startsAt)

def status (rollout : Rollout) (digest : String → UInt64) (machineID version : String)
    (now : Int) : RolloutStatus where
  cohort := cohort digest machineID version
  buckets := cohortBuckets
  percentOpen := rollout.percentAt now
  eligible := cohort digest machineID version < rollout.percentAt now * (cohortBuckets / 100)
  nextStageAt := rollout.nextStageAfter now

end Rollout

def RolloutStage.Widens (a b : RolloutStage) : Prop :=
  a.startsAt < b.startsAt ∧ a.percent ≤ b.percent

variable {stages : List RolloutStage} {stage : RolloutStage} {now later percent : Int}

theorem checkStages_ok {index : Nat} {previous : Option RolloutStage}
    (h : checkStages index previous stages = .ok ()) :
    (∀ s ∈ stages, 0 ≤ s.percent ∧ ∀ p ∈ previous, p.Widens s) ∧
      stages.Pairwise RolloutStage.Widens := by
  induction stages generalizing index previous with
  | nil => simp
  | cons stage rest ih =>
    rw [checkStages] at h
    split_ifs at h with _ hpercent hstart hreduced
    obtain ⟨hrest, hordered⟩ := ih h
    simp only [Option.any_eq_true, not_exists, not_and, decide_eq_true_eq, not_le, not_lt]
      at hstart hreduced
    refine ⟨?_, List.pairwise_cons.mpr ⟨fun s hs => (hrest s hs).2 stage rfl, hordered⟩⟩
    intro s hs
    obtain rfl | hs := List.mem_cons.mp hs
    · exact ⟨by omega, fun p hp => ⟨hstart p hp, hreduced p hp⟩⟩
    · have hnext := (hrest s hs).2 stage rfl
      exact ⟨(hrest s hs).1, fun p hp =>
        ⟨(hstart p hp).trans hnext.1, (hreduced p hp).trans hnext.2⟩⟩

theorem scanStages_latest (h : stages.Pairwise RolloutStage.Widens) (hmem : stage ∈ stages)
    (hstarted : stage.startsAt ≤ now)
    (hlast : ∀ s ∈ stages, s.startsAt ≤ now → s.startsAt ≤ stage.startsAt) :
    scanStages now percent stages = stage.percent := by
  induction stages generalizing percent with
  | nil => simp at hmem
  | cons s rest ih =>
    obtain ⟨hs, hrest⟩ := List.pairwise_cons.mp h
    obtain rfl | hmem := List.mem_cons.mp hmem
    · rw [scanStages, if_neg (by omega)]
      cases rest with
      | nil => rfl
      | cons next _ =>
        have hnext := hs next (by simp)
        have := hlast next (by simp)
        rw [scanStages, if_pos (by have := hnext.1; omega)]
    · have := (hs stage hmem).1
      rw [scanStages, if_neg (by omega)]
      exact ih hrest hmem fun s hs => hlast s (List.mem_cons_of_mem _ hs)

theorem scanStages_mono (h : stages.Pairwise RolloutStage.Widens)
    (hpercent : ∀ s ∈ stages, percent ≤ s.percent) (hle : now ≤ later) :
    percent ≤ scanStages later percent stages ∧
      scanStages now percent stages ≤ scanStages later percent stages := by
  induction stages generalizing percent with
  | nil => exact ⟨le_rfl, le_rfl⟩
  | cons s rest ih =>
    obtain ⟨hs, hrest⟩ := List.pairwise_cons.mp h
    obtain ⟨hopen, hgrows⟩ := ih hrest fun t ht => (hs t ht).2
    have := hpercent s (by simp)
    rw [scanStages, scanStages]
    split_ifs <;> omega

/-- Exposure only grows, follows the latest stage that has started, and is that percentage of the
buckets. -/
theorem exposure_only_grows (rollout : Rollout) (h : rollout.validate = .ok ())
    (digest : String → UInt64) (machineID version : String) (hle : now ≤ later) :
    let plan := rollout.normalize
    let status := plan.status digest machineID version
    ((status now).eligible → (status later).eligible) ∧
      (plan.stages = [] → plan.percentAt now = 100) ∧
      (plan.stages ≠ [] → (∀ s ∈ plan.stages, now < s.startsAt) → plan.percentAt now = 0) ∧
      (∀ s ∈ plan.stages, s.startsAt ≤ now →
        (∀ t ∈ plan.stages, t.startsAt ≤ now → t.startsAt ≤ s.startsAt) →
        plan.percentAt now = s.percent) ∧
      ((status now).eligible ↔
        100 * (cohort digest machineID version : Int) < plan.percentAt now * cohortBuckets) ∧
      (plan.percentAt now = 100 → (status now).eligible) ∧
      (plan.percentAt now = 0 → ¬ (status now).eligible) := by
  have hbucket : cohort digest machineID version < 10000 := Nat.mod_lt _ (by decide)
  rw [Rollout.validate] at h
  split_ifs at h
  obtain ⟨hopen, hordered⟩ := checkStages_ok h
  have hgrows := (scanStages_mono hordered (fun s hs => (hopen s hs).1) hle).2
  simp only [Rollout.status, Rollout.percentAt, List.isEmpty_iff, decide_eq_true_eq, cohortBuckets]
  refine ⟨fun hnow => ?_, fun hnil => if_pos hnil, fun hne hall => ?_, fun s hs hstart hlast => ?_,
    by omega, fun hp => by omega, fun hp => by omega⟩
  · split_ifs at hnow ⊢ <;> omega
  · obtain ⟨first, rest, hstages⟩ := List.exists_cons_of_ne_nil hne
    rw [if_neg hne, hstages, scanStages, if_pos (hall first (by simp [hstages]))]
  · rw [if_neg (List.ne_nil_of_mem hs), scanStages_latest hordered hs hstart hlast]

/-- Stages given out of order, from one second to the next. -/
theorem two_stages_open_in_order : ((Rollout.mk [⟨2000000007, 50⟩, ⟨1000000000, 10⟩]).normalize
    |>.percentAt 2000000001) = 50 :=
  (exposure_only_grows ⟨[⟨2000000007, 50⟩, ⟨1000000000, 10⟩]⟩ (by decide) (fun _ => 0) "m" "1.0.0"
    (le_refl 2000000001)).2.2.2.1 ⟨2000000000, 50⟩ (by decide) (by decide) (by decide)

theorem scanStages_still (hle : now ≤ later)
    (hbefore : ∀ s ∈ stages.find? (now < ·.startsAt), later < s.startsAt) :
    (∀ percent, scanStages later percent stages = scanStages now percent stages) ∧
      stages.find? (later < ·.startsAt) = stages.find? (now < ·.startsAt) := by
  induction stages with
  | nil => exact ⟨fun _ => rfl, rfl⟩
  | cons s rest ih =>
    by_cases hnext : now < s.startsAt
    · have hwait : later < s.startsAt := hbefore s (by simp [hnext])
      simp [scanStages, hnext, hwait]
    · have hpast : ¬ later < s.startsAt := by omega
      simp only [List.find?_cons, hnext, decide_false] at hbefore
      obtain ⟨hpercent, hfind⟩ := ih hbefore
      simp [scanStages, hnext, hpast, hpercent, hfind]

/-- Until the next stage that a status names, or forever if it names none, nothing of it changes: a
machine that sleeps until then misses nothing. -/
theorem status_still_until_next (rollout : Rollout) (digest : String → UInt64)
    (machineID version : String) (hle : now ≤ later)
    (hbefore : ∀ start ∈ (rollout.status digest machineID version now).nextStageAt, later < start) :
    rollout.status digest machineID version later =
      rollout.status digest machineID version now := by
  have hnext : ∀ s ∈ rollout.stages.find? (now < ·.startsAt), later < s.startsAt :=
    fun s hs => hbefore s.startsAt (Option.mem_map_of_mem _ hs)
  obtain ⟨hpercent, hfind⟩ := scanStages_still hle hnext
  have hopen : rollout.percentAt later = rollout.percentAt now := by
    simp only [Rollout.percentAt, hpercent]
  simp only [Rollout.status, hopen, Rollout.nextStageAfter, hfind]

theorem second_stage_awaited : ∃ plan : Rollout, plan.nextStageAfter 1000000000 = some 2000000000 ∧
    plan.status (fun _ => 0) "m" "1.0.0" 1999999999 =
      plan.status (fun _ => 0) "m" "1.0.0" 1000000000 :=
  ⟨⟨[⟨1000000000, 10⟩, ⟨2000000000, 50⟩]⟩, by decide,
    status_still_until_next _ _ "m" "1.0.0" (by decide) (by decide)⟩

end Shiftgate.Update
