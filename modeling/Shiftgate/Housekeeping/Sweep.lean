import Shiftgate.Housekeeping.Checkpoints

/-! What the checkpoint step leaves: a finished step has marked exactly the live checkpoints past
their window that no newest checkpoint hangs off. That set is not closed under descent, and a
checkpoint that is still being created counts as newest. -/

namespace Shiftgate.Housekeeping

open Library List

variable {Id : Type} [LinearOrder Id]

def Sweepable (policies : Policies) (now : Int) (rows : List (Checkpoint Id))
    (c : Checkpoint Id) : Prop :=
  c.status.live = true ∧ pastWindow policies now c = true ∧ ¬ Guarded rows c.id

variable {now : Int} {rows : List (Checkpoint Id)} {c : Checkpoint Id} {b : Batch Id}

theorem Sweepable.later {policies : Policies} {later : Int} (h : Sweepable policies now rows c)
    (hle : now ≤ later) : Sweepable policies later rows c := by
  obtain ⟨hlive, hpast, hout⟩ := h
  refine ⟨hlive, ?_, hout⟩
  simp only [pastWindow, Bool.and_eq_true, decide_eq_true_eq] at hpast ⊢
  exact ⟨hpast.1, by omega⟩

/-- The rows are those of the table with some sweepable ones marked, and all of them at the end. -/
structure Swept (policies : Policies) (rows : List (Checkpoint Id)) (ids : List Id)
    (s : Sweep Id) : Prop where
  marked : s.rows = markDeleted ids rows
  only : ∀ id ∈ ids, ∃ c ∈ rows, c.id = id ∧ Sweepable policies s.clock rows c
  all : s.finished = true → ∀ c ∈ rows, Sweepable policies s.clock rows c → c.id ∈ ids

theorem mem_eligible_markDeleted {policies : Policies} {ids : List Id}
    (hids : ∀ id ∈ ids, ¬ Guarded rows id) {id : Id} :
    id ∈ (eligible policies now (markDeleted ids rows)).map (·.id) ↔
      ∃ c ∈ rows, c.id = id ∧ Sweepable policies now rows c ∧ id ∉ ids := by
  have hprotected := protectedIDs_markDeleted fun id hid hmem =>
    hids id hid (mem_protectedIDs.mp hmem)
  rw [eligible, hprotected]
  simp only [markDeleted, mem_map, mem_filter, Bool.and_eq_true, decide_eq_true_eq,
    mem_protectedIDs]
  constructor
  · rintro ⟨_, ⟨⟨c, hc, rfl⟩, ⟨hlive, hpast⟩, hout⟩, rfl⟩
    rw [mark_live, Bool.and_eq_true, decide_eq_true_eq] at hlive
    rw [mark_pastWindow] at hpast
    rw [mark_id] at hout ⊢
    exact ⟨c, hc, rfl, ⟨hlive.1, hpast, hout⟩, hlive.2⟩
  · rintro ⟨c, hc, rfl, ⟨hlive, hpast, hout⟩, hmem⟩
    refine ⟨mark ids c, ⟨⟨c, hc, rfl⟩, ⟨?_, ?_⟩, ?_⟩, mark_id ids c⟩
    · simp [mark_live, hlive, hmem]
    · rw [mark_pastWindow, hpast]
    · rw [mark_id]
      exact hout

theorem Batch.allowed.all {policies : Policies} (h : b.allowed policies rows)
    (hshort : b.chosen.length < housekeepingBatch) :
    ∀ id ∈ (eligible policies b.now rows).map (·.id), id ∈ b.chosen := by
  obtain ⟨hnodup, hmem, hlength⟩ := h
  have hle : ((eligible policies b.now rows).map (·.id)).length ≤ b.chosen.length := by
    rw [length_map]
    omega
  have hperm := (hnodup.subperm hmem).perm_of_length_le hle
  exact fun id hid => hperm.mem_iff.mpr hid

theorem Swept.step {policies : Policies} {table : Table Id} {ids : List Id} {s t : Sweep Id}
    (h : Swept policies table.rows ids s) (hstep : step policies s b = some t) :
    Swept policies table.rows (ids ++ b.chosen) t := by
  unfold Housekeeping.step at hstep
  split at hstep
  · rename_i hguard
    cases hstep
    obtain ⟨_, hclock, hallowed⟩ := hguard
    have hids : ∀ id ∈ ids, ¬ Guarded table.rows id := by
      intro id hid
      obtain ⟨c, _, rfl, hc⟩ := h.only id hid
      exact hc.2.2
    rw [h.marked] at hallowed
    refine ⟨by rw [h.marked, markDeleted_append], fun id hid => ?_, fun hfinished c hc hsweep => ?_⟩
    · rcases mem_append.mp hid with hid | hid
      · obtain ⟨c, hc, hcid, hsweep⟩ := h.only id hid
        exact ⟨c, hc, hcid, hsweep.later hclock⟩
      · obtain ⟨c, hc, hcid, hsweep, _⟩ :=
          (mem_eligible_markDeleted hids).mp (hallowed.2.1 id hid)
        exact ⟨c, hc, hcid, hsweep⟩
    · by_cases hmem : c.id ∈ ids
      · exact mem_append_left _ hmem
      · refine mem_append_right _ (hallowed.all (of_decide_eq_true hfinished) c.id ?_)
        exact (mem_eligible_markDeleted hids).mpr ⟨c, hc, rfl, hsweep, hmem⟩
  · cases hstep

theorem swept_run {policies : Policies} {table : Table Id} {batches : List (Batch Id)}
    {s : Sweep Id} (hr : exec (step policies) (start table now) batches = some s) :
    ∃ ids, Swept policies table.rows ids s := by
  have hstart : Swept policies table.rows [] (start table now) :=
    ⟨(markDeleted_nil table.rows).symm, by simp, fun h => by cases h⟩
  exact Reachable.invariant (fun s => ∃ ids, Swept policies table.rows ids s)
    (fun _ _ _ ⟨_, h⟩ hstep => ⟨_, h.step hstep⟩) ⟨[], hstart⟩ ⟨batches, hr⟩

def Available (rows : List (Checkpoint Id)) (id : Id) : Prop :=
  ∃ c ∈ rows, c.id = id ∧ c.status = .available

structure Restorable (before after : List (Checkpoint Id)) : Prop where
  lineage : ∀ b, Available after b → (∀ a, Ancestor before a b → Available before a) →
    ∀ a, Ancestor before a b → Available after a
  copies : ∀ c ∈ before, c.status = .available →
    ∃ d ∈ after, sameWorkload d c = true ∧ d.status = .available

/-- No checkpoint inside its window hangs off an unguarded one past it, and every workload with an
available checkpoint has one inside its window or guarded. -/
structure Safe (policies : Policies) (now : Int) (rows : List (Checkpoint Id)) : Prop where
  lineage : ∀ b ∈ rows, b.status = .available → pastWindow policies now b = false →
    (∀ a, Ancestor rows a b.id → Available rows a) →
    ∀ a ∈ rows, Ancestor rows a.id b.id → pastWindow policies now a = true → Guarded rows a.id
  copies : ∀ c ∈ rows, c.status = .available → ∃ d ∈ rows, sameWorkload d c = true ∧
    d.status = .available ∧ (pastWindow policies now d = false ∨ Guarded rows d.id)

theorem mark_sameWorkload_left (ids : List Id) (c d : Checkpoint Id) :
    sameWorkload (mark ids c) d = sameWorkload c d := by
  unfold mark
  split <;> rfl

section Finished

variable {policies : Policies} {table : Table Id} {ids : List Id} {s : Sweep Id}

section

variable (h : Swept policies table.rows ids s)

include h

theorem Swept.kept (hdone : s.finished = true) (hc : c ∈ table.rows)
    (hstatus : c.status = .available) :
    c.id ∉ ids ↔ pastWindow policies s.clock c = false ∨ Guarded table.rows c.id := by
  have hiff : c.id ∈ ids ↔ Sweepable policies s.clock table.rows c := by
    refine ⟨fun hid => ?_, h.all hdone c hc⟩
    obtain ⟨d, hd, hdc, hsweep⟩ := h.only c.id hid
    exact id_unique table hd hc hdc ▸ hsweep
  rw [hiff]
  simp only [Sweepable, hstatus, CheckpointStatus.live, true_and, not_and_or, Bool.not_eq_true,
    not_not]

theorem Swept.available {id : Id} : Available s.rows id ↔ Available table.rows id ∧ id ∉ ids := by
  rw [h.marked]
  constructor
  · rintro ⟨_, hmem, rfl, hstatus⟩
    obtain ⟨c, hc, rfl⟩ := mem_map.mp hmem
    obtain ⟨hstatus, hout⟩ := mark_available.mp hstatus
    rw [mark_id]
    exact ⟨⟨c, hc, rfl, hstatus⟩, hout⟩
  · rintro ⟨⟨c, hc, rfl, hstatus⟩, hout⟩
    exact ⟨mark ids c, mem_map_of_mem hc, mark_id ids c, mark_available.mpr ⟨hstatus, hout⟩⟩

theorem Swept.restorable (hdone : s.finished = true) (hsafe : Safe policies s.clock table.rows) :
    Restorable table.rows s.rows := by
  refine ⟨fun b hb hbefore a ha => ?_, fun c hc hstatus => ?_⟩
  · obtain ⟨⟨c, hc, rfl, hstatus⟩, hout⟩ := h.available.mp hb
    obtain ⟨d, hd, rfl, hdstatus⟩ := hbefore a ha
    refine h.available.mpr ⟨⟨d, hd, rfl, hdstatus⟩, (h.kept hdone hd hdstatus).mpr ?_⟩
    rcases (h.kept hdone hc hstatus).mp hout with hinside | hguarded
    · cases hpast : pastWindow policies s.clock d with
      | false => exact .inl rfl
      | true => exact .inr (hsafe.lineage c hc hstatus hinside hbefore d hd ha hpast)
    · exact .inr (hguarded.ancestor ha)
  · obtain ⟨d, hd, hsame, hdstatus, hkept⟩ := hsafe.copies c hc hstatus
    rw [h.marked]
    exact ⟨mark ids d, mem_map_of_mem hd, by rw [mark_sameWorkload_left, hsame],
      mark_available.mpr ⟨hdstatus, (h.kept hdone hd hdstatus).mpr hkept⟩⟩

theorem Swept.safe (hdone : s.finished = true) (hrestorable : Restorable table.rows s.rows) :
    Safe policies s.clock table.rows := by
  refine ⟨fun b hb hstatus hinside hbefore a ha hancestor hpast => ?_, fun c hc hstatus => ?_⟩
  · have hkept : Available s.rows b.id := h.available.mpr
      ⟨⟨b, hb, rfl, hstatus⟩, (h.kept hdone hb hstatus).mpr (.inl hinside)⟩
    obtain ⟨hav, hout⟩ := h.available.mp (hrestorable.lineage b.id hkept hbefore a.id hancestor)
    obtain ⟨d, hd, hda, hdstatus⟩ := hav
    obtain rfl := id_unique table hd ha hda
    exact ((h.kept hdone hd hdstatus).mp hout).resolve_left (by simp [hpast])
  · obtain ⟨_, hmem, hsame, hdstatus⟩ := hrestorable.copies c hc hstatus
    rw [h.marked] at hmem
    obtain ⟨d, hd, rfl⟩ := mem_map.mp hmem
    obtain ⟨hdstatus, hout⟩ := mark_available.mp hdstatus
    exact ⟨d, hd, by rw [← mark_sameWorkload_left ids, hsame], hdstatus,
      (h.kept hdone hd hdstatus).mp hout⟩

end

end Finished

/-- After a finished step, in whatever batches, survivors are restorable and workloads keep a copy
exactly when the table was safe at the last batch. -/
theorem sweep_restorable_iff {policies : Policies} {table : Table Id} {now : Int}
    {batches : List (Batch Id)} {s : Sweep Id}
    (hr : exec (step policies) (start table now) batches = some s) (hdone : s.finished = true) :
    Restorable table.rows s.rows ↔ Safe policies s.clock table.rows := by
  obtain ⟨ids, hswept⟩ := swept_run hr
  exact ⟨hswept.safe hdone, hswept.restorable hdone⟩

theorem Swept.sweepable {policies : Policies} {table : Table Id} {ids : List Id} {s : Sweep Id}
    (h : Swept policies table.rows ids s) (hc : c ∈ table.rows) (hid : c.id ∈ ids) :
    Sweepable policies s.clock table.rows c := by
  obtain ⟨d, hd, hdc, hsweep⟩ := h.only c.id hid
  exact id_unique table hd hc hdc ▸ hsweep

/-- At every moment of a step, also of one that is cut off, a checkpoint that is not sweepable at
the last batch is as it was. -/
theorem unswept_untouched {policies : Policies} {table : Table Id} {batches : List (Batch Id)}
    {s : Sweep Id} (hr : exec (step policies) (start table now) batches = some s)
    (hc : c ∈ table.rows) (hkept : ¬ Sweepable policies s.clock table.rows c) : c ∈ s.rows := by
  obtain ⟨ids, h⟩ := swept_run hr
  have hsame : mark ids c = c := if_neg fun hid => hkept (h.sweepable hc hid)
  rw [h.marked]
  exact hsame ▸ mem_map_of_mem hc

/-- However the batches are cut and whichever rows each takes, two finished steps whose last batches
ran at the same time have marked the same checkpoints. -/
theorem finished_sweeps_agree {policies : Policies} {table : Table Id} {now now' : Int}
    {batches batches' : List (Batch Id)} {s t : Sweep Id}
    (hs : exec (step policies) (start table now) batches = some s)
    (ht : exec (step policies) (start table now') batches' = some t)
    (hdone : s.finished = true) (hdone' : t.finished = true) (hclock : s.clock = t.clock) :
    s.rows = t.rows := by
  obtain ⟨ids, h⟩ := swept_run hs
  obtain ⟨ids', h'⟩ := swept_run ht
  rw [h.marked, h'.marked]
  refine map_congr_left fun c hc => ?_
  have hsame : c.id ∈ ids ↔ c.id ∈ ids' :=
    ⟨fun hid => h'.all hdone' c hc (hclock ▸ h.sweepable hc hid),
      fun hid => h.all hdone c hc (hclock ▸ h'.sweepable hc hid)⟩
  simp only [mark, hsame]

namespace Sample

def day (n : Int) : Int := 86400 * n

def chains : Table Nat where
  rows := [⟨1, "org", "w", none, .available, day 0⟩, ⟨2, "org", "w", some 1, .available, day 95⟩,
    ⟨3, "org", "w", none, .available, day 99⟩]
  unique := by decide

def halfCreated : Table Nat where
  rows := [⟨1, "org", "w", none, .available, day 0⟩, ⟨2, "org", "w", none, .creating, day 99⟩]
  unique := by decide

def lineage : Table Nat where
  rows := [⟨1, "org", "w", none, .available, day 0⟩, ⟨2, "org", "w", none, .available, day 1⟩,
    ⟨3, "org", "w", some 1, .available, day 2⟩]
  unique := by decide

def defaults : Policies := fun _ => none

end Sample

open Sample

theorem lineage_restorable_iff :
    ∃ s, exec (step Sample.defaults) (start Sample.lineage (Sample.day 100))
        [⟨Sample.day 100, [2]⟩] = some s ∧ s.finished = true ∧
      (Restorable Sample.lineage.rows s.rows ↔
        Safe Sample.defaults s.clock Sample.lineage.rows) := by
  exact exists_some_and (by decide) fun _ hs hdone => sweep_restorable_iff hs hdone

/-- The step marks the parent of a checkpoint inside its window; and it marks a workload's only
available checkpoint, because one being created counts as newest. -/
theorem sweep_breaks_chain_and_takes_last_copy :
    (∃ s, exec (step Sample.defaults) (start Sample.chains (Sample.day 100))
        [⟨Sample.day 100, [1]⟩] = some s ∧ s.finished = true ∧
      Available s.rows 2 ∧ (∀ a, Ancestor Sample.chains.rows a 2 → Available Sample.chains.rows a) ∧
      Ancestor Sample.chains.rows 1 2 ∧ ¬ Available s.rows 1) ∧
    ∃ s, exec (step Sample.defaults) (start Sample.halfCreated (Sample.day 100))
        [⟨Sample.day 100, [1]⟩] = some s ∧ s.finished = true ∧
      (∃ c ∈ Sample.halfCreated.rows, c.status = .available) ∧
      ∀ d ∈ s.rows, d.status ≠ .available := by
  constructor
  · obtain ⟨s, hs, hdone, hchild, hgone⟩ : ∃ s, exec (step defaults)
        (start chains (day 100)) [⟨day 100, [1]⟩] = some s ∧
        s.finished = true ∧ (∃ c ∈ s.rows, c.id = 2 ∧ c.status = .available) ∧
        ¬ ∃ c ∈ s.rows, c.id = 1 ∧ c.status = .available := by decide
    refine ⟨s, hs, hdone, hchild, fun a ha => ?_, .single (by decide), hgone⟩
    -- Every checkpoint that is somebody's parent is available.
    have hparents : ∀ x ∈ [1, 2, 3], ∀ y ∈ parentIDs chains.rows x,
        ∃ c ∈ chains.rows, c.id = y ∧ c.status = .available := by decide
    obtain ⟨x, hx⟩ : ∃ x, a ∈ parentIDs chains.rows x := by
      cases ha with
      | single h => exact ⟨_, h⟩
      | tail _ h => exact ⟨_, h⟩
    obtain ⟨c, hfilter, _⟩ := mem_flatMap.mp hx
    obtain ⟨hc, hid⟩ := mem_filter.mp hfilter
    obtain rfl := of_decide_eq_true hid
    have hknown : ∀ c ∈ chains.rows, c.id ∈ [1, 2, 3] := by decide
    exact hparents c.id (hknown c hc) a hx
  · decide

theorem lineage_parent_untouched : ∃ s,
    exec (step Sample.defaults) (start Sample.lineage (Sample.day 100))
      [⟨Sample.day 100, [2]⟩] = some s ∧
    ⟨1, "org", "w", none, .available, Sample.day 0⟩ ∈ s.rows := by
  obtain ⟨s, hs, -⟩ : ∃ s, exec (step defaults) (start lineage (day 100))
    [⟨day 100, [2]⟩] = some s ∧ s.finished = true := by decide
  refine ⟨s, hs, unswept_untouched hs (by decide) fun hsweep => hsweep.2.2 ?_⟩
  exact mem_protectedIDs.mp (by decide)

theorem chains_sweeps_agree : ∃ s t,
    exec (step Sample.defaults) (start Sample.chains (Sample.day 200))
      [⟨Sample.day 200, [1, 2]⟩] = some s ∧
    exec (step Sample.defaults) (start Sample.chains (Sample.day 100))
      [⟨Sample.day 200, [2, 1]⟩] = some t ∧ s.rows = t.rows := by
  obtain ⟨s, hs, hdone, hclock⟩ : ∃ s, exec (step defaults) (start chains (day 200))
    [⟨day 200, [1, 2]⟩] = some s ∧ s.finished = true ∧ s.clock = day 200 := by decide
  obtain ⟨t, ht, hdone', hclock'⟩ : ∃ t, exec (step defaults) (start chains (day 100))
    [⟨day 200, [2, 1]⟩] = some t ∧ t.finished = true ∧ t.clock = day 200 := by decide
  exact ⟨s, t, hs, ht, finished_sweeps_agree hs ht hdone hdone' (hclock.trans hclock'.symm)⟩

end Shiftgate.Housekeeping
