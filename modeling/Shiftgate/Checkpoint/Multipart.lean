import Shiftgate.Checkpoint.MirrorRoundTrip
import Shiftgate.Chunkstore.RoundTrip

/-! The `multipartChunkWriter` of `internal/checkpoint/mirror.go`: the parts it hands to
`CompleteMultipart`, over any store that holds what it takes. -/

namespace Shiftgate.Checkpoint.Mirrors.Multipart

open List Option

open Securestore (Bytes)
open Chunkstore (Cut)
open Objectstore (PartInfo)

abbrev Held := Int → Option Bytes

def partInfo (c : MirrorCodec) (number : Int) (content : Bytes) : PartInfo :=
  ⟨number, content.length, c.sha256 content⟩

def listed (c : MirrorCodec) (held : Held) (number : Int) : Option PartInfo :=
  (held number).map (partInfo c number)

/-- The context's end, by the part and the byte in it that comes next, and the parts that the store
does not take. -/
structure Faults where
  done : Nat → Nat → Bool
  refused : Nat → Bytes → Bool

/-- The writer and its store. Between two writes the buffer has room. -/
structure Writer (partSize : Nat) where
  existing : Int → Option PartInfo
  buffer : Bytes
  parts : List PartInfo
  nextPart : Nat
  held : Held
  uploaded : List Nat
  room : buffer.length < partSize

namespace Writer

variable {partSize : Nat} (c : MirrorCodec) (faults : Faults)

def start (held : Held) (hpos : 0 < partSize) : Writer partSize :=
  ⟨listed c held, [], [], 0, held, [], hpos⟩

def flushPart (w : Writer partSize) (data : Bytes) : Option (Writer partSize) :=
  let number := w.nextPart + 1
  let part := partInfo c number data
  let flushed : Writer partSize :=
    { w with
      buffer := []
      nextPart := number
      parts := w.parts ++ [part]
      room := Nat.zero_lt_of_lt w.room }
  if (w.existing number).any fun old =>
      old.size == part.size && c.equalFold old.sha256 part.sha256 then some flushed
  else if faults.refused number data then none
  else some { flushed with
    held := Function.update w.held number (some data)
    uploaded := number :: w.uploaded }

def write (w : Writer partSize) (value : Bytes) : Option (Writer partSize) :=
  if hvalue : value = [] then some w
  else if faults.done w.nextPart w.buffer.length then none
  else
    let count := min value.length (partSize - w.buffer.length)
    have hcount : 0 < count :=
      lt_min (length_pos_iff.mpr hvalue) (Nat.sub_pos_of_lt w.room)
    let data := w.buffer ++ value.take count
    if hfull : data.length = partSize then
      (flushPart c faults w data).bind fun w => write w (value.drop count)
    else
      have hroom : data.length < partSize := by
        have := w.room
        simp only [data, count, length_append, length_take] at hfull ⊢
        omega
      write { w with buffer := data, room := hroom } (value.drop count)
termination_by value.length
decreasing_by all_goals
  have := length_pos_iff.mpr hvalue
  rw [length_drop]
  omega

def close (w : Writer partSize) : Option (Writer partSize) :=
  if w.buffer = [] then some w else flushPart c faults w w.buffer

def copy (w : Writer partSize) (writes : List Bytes) : Option (Writer partSize) :=
  (writes.foldlM (write c faults) w).bind (close c faults)

end Writer

structure Sent (c : MirrorCodec) {partSize : Nat} (before : Held) (w : Writer partSize)
    (pieces : List Bytes) : Prop where
  parts : w.parts = (pieces.zipIdx 1).map fun p => partInfo c p.2 p.1
  stored : ∀ p ∈ pieces.zipIdx 1, w.held p.2 = some p.1 ∧
    (p.2 ∉ w.uploaded → listed c before p.2 = some (partInfo c p.2 p.1))
  next : w.nextPart = pieces.length
  existing : w.existing = listed c before
  later : ∀ number : Int, pieces.length < number → w.held number = before number

structure Sending (c : MirrorCodec) {partSize : Nat} (before : Held) (w : Writer partSize)
    (stream : Bytes) (pieces : List Bytes) : Prop extends Sent c before w pieces where
  full : ∀ piece ∈ pieces, piece.length = partSize
  stream : stream = pieces.flatten ++ w.buffer

section Steps

variable {c : MirrorCodec} {faults : Faults} {partSize : Nat} {before : Held}
  {w w' : Writer partSize} {stream : Bytes} {pieces : List Bytes}

theorem held_of_listed {number : Int} {data : Bytes} {part : PartInfo}
    (hlisted : listed c before number = some part)
    (hdigest : c.equalFold part.sha256 (c.sha256 data) = true) :
    before number = some data ∧ part = partInfo c number data := by
  obtain ⟨content, hcontent, rfl⟩ := map_eq_some_iff.mp hlisted
  obtain rfl : content = data := c.sha256_injective (c.equalFold_digest _ _ hdigest)
  exact ⟨hcontent, rfl⟩

theorem Sent.flushPart {data : Bytes} (h : Sent c before w pieces)
    (hrun : w.flushPart c faults data = some w') :
    Sent c before w' (pieces ++ [data]) ∧ w'.buffer = [] := by
  have hzip : (pieces ++ [data]).zipIdx 1 = pieces.zipIdx 1 ++ [(data, pieces.length + 1)] := by
    simp [zipIdx_append, Nat.add_comm]
  have hlength : (pieces ++ [data]).length = pieces.length + 1 := by simp
  simp only [Writer.flushPart, h.existing, h.next] at hrun
  split at hrun
  case isTrue hreused =>
    cases hrun
    obtain ⟨part, hlisted, hpart⟩ := (Option.any_eq_true ..).mp hreused
    obtain ⟨hbefore, rfl⟩ := held_of_listed hlisted (Bool.and_eq_true_iff.mp hpart).2
    refine ⟨⟨by simp [hzip, h.parts], ?_, hlength.symm, rfl, fun number hnumber => ?_⟩, rfl⟩
    · rw [hzip, forall_mem_append, forall_mem_singleton]
      exact ⟨h.stored, (h.later _ (by omega)).trans hbefore, fun _ => hlisted⟩
    · exact h.later number (by omega)
  case isFalse =>
    split at hrun
    · cases hrun
    · cases hrun
      refine ⟨⟨by simp [hzip, h.parts], ?_, hlength.symm, rfl, fun number hnumber => ?_⟩, rfl⟩
      · rw [hzip, forall_mem_append, forall_mem_singleton]
        refine ⟨fun p hp => ?_, Function.update_self .., fun h => absurd mem_cons_self h⟩
        have hlt := snd_lt_add_of_mem_zipIdx hp
        obtain ⟨hheld, hreused⟩ := h.stored p hp
        exact ⟨(Function.update_of_ne (by omega) ..).trans hheld,
          fun hnew => hreused fun hmem => hnew (mem_cons_of_mem _ hmem)⟩
      · exact (Function.update_of_ne (by omega) ..).trans (h.later number (by omega))

theorem Sending.write {value : Bytes} (hrun : w.write c faults value = some w')
    (h : Sending c before w stream pieces) :
    ∃ pieces', Sending c before w' (stream ++ value) pieces' := by
  fun_induction Writer.write c faults w value generalizing stream pieces with
  | case1 w =>
    cases hrun
    exact ⟨pieces, by simpa using h⟩
  | case2 => cases hrun
  | case3 w value hvalue hgoing count hcount data =>
    rename_i hfull ih
    obtain ⟨flushed, hflush, hrest⟩ := bind_eq_some_iff.mp hrun
    obtain ⟨hsent, hempty⟩ := h.toSent.flushPart hflush
    have hstream : stream ++ value.take count = (pieces ++ [data]).flatten ++ flushed.buffer := by
      simp [h.stream, hempty, data]
    have hsizes : ∀ piece ∈ pieces ++ [data], piece.length = partSize := by
      simpa [or_imp, forall_and] using ⟨h.full, hfull⟩
    obtain ⟨pieces', h'⟩ := ih flushed hrest ⟨hsent, hsizes, hstream⟩
    exact ⟨pieces', by simpa [append_assoc] using h'⟩
  | case4 w value hvalue hgoing count hcount data hfull =>
    rename_i hroom ih
    have hstream : stream ++ value.take count = pieces.flatten ++ data := by
      simp [h.stream, data]
    obtain ⟨pieces', h'⟩ := ih hrun ⟨⟨h.parts, h.stored, h.next, h.existing, h.later⟩, h.full,
      hstream⟩
    exact ⟨pieces', by simpa [append_assoc] using h'⟩

theorem Sending.writes {writes : List Bytes} (h : Sending c before w stream pieces)
    (hrun : writes.foldlM (Writer.write c faults) w = some w') :
    ∃ pieces', Sending c before w' (stream ++ writes.flatten) pieces' := by
  induction writes generalizing w stream pieces with
  | nil =>
    cases hrun
    exact ⟨pieces, by simpa using h⟩
  | cons value rest ih =>
    obtain ⟨written, hwrite, hrest⟩ := bind_eq_some_iff.mp hrun
    obtain ⟨pieces₁, h₁⟩ := Sending.write hwrite h
    obtain ⟨pieces₂, h₂⟩ := ih h₁ hrest
    exact ⟨pieces₂, by simpa [append_assoc] using h₂⟩

theorem Sending.close (h : Sending c before w stream pieces)
    (hrun : w.close c faults = some w') :
    ∃ pieces', pieces'.flatten = stream ∧ Cut partSize pieces' ∧ Sent c before w' pieces' := by
  have hpos : 0 < partSize := Nat.zero_lt_of_lt w.room
  have hroom := w.room
  unfold Writer.close at hrun
  split at hrun
  case isTrue hempty =>
    cases hrun
    refine ⟨pieces, by simp [h.stream, hempty], ⟨?_, ?_⟩, h.toSent⟩
    · intro piece hpiece
      have := h.full piece hpiece
      omega
    · intro piece hpiece
      exact h.full piece (mem_of_mem_dropLast hpiece)
  case isFalse hsome =>
    have hbuffer := length_pos_iff.mpr hsome
    refine ⟨pieces ++ [w.buffer], by simp [h.stream], ⟨?_, ?_⟩, (h.toSent.flushPart hrun).1⟩
    · intro piece hpiece
      rcases mem_append.mp hpiece with hpiece | hpiece
      · have := h.full piece hpiece
        omega
      · rw [mem_singleton.mp hpiece]
        omega
    · intro piece hpiece
      rw [dropLast_concat] at hpiece
      exact h.full piece hpiece

end Steps

namespace Sample

def before : Held := fun number => if number = 1 then some [1, 2] else none

def resumed (c : MirrorCodec) : Option (Writer 2) :=
  (Writer.start c before two_pos).copy c ⟨fun _ _ => false, fun _ _ => false⟩ [[1, 2, 3]]

theorem resumed_uploaded (c : MirrorCodec) : (resumed c).map (·.uploaded) = some [2] := by
  rw [resumed, Writer.copy, foldlM_cons, Writer.write]
  simp [before, Writer.start, Writer.flushPart, listed, partInfo, c.equalFold_refl]
  rw [Writer.write]
  simp
  rw [Writer.write]
  simp [Writer.close, Writer.flushPart, listed, before]

end Sample

end Shiftgate.Checkpoint.Mirrors.Multipart
