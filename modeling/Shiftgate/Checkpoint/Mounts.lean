import Mathlib.Data.FinEnum
import Shiftgate.Library.Lines

/-! The mount table that a capture is checked against, `internal/checkpoint/archive.go`: paths as
the kernel prints them, and the lines as the source cuts them. -/

namespace Shiftgate.Checkpoint.Mounts

open Library List

abbrev Path := List UInt8

def space : UInt8 := 32
def newline : UInt8 := 10
def backslash : UInt8 := 92
def dash : Path := [45]

/-- How the kernel prints a path; `#` is escaped by some versions. -/
def mangle (hash : Bool) (path : Path) : Path :=
  path.flatMap fun b =>
    if [space, 9, newline, backslash].contains b || hash && b = 35 then
      [backslash, 48 + b / 64, 48 + b / 8 % 8, 48 + b % 8]
    else [b]

/-- `strconv.ParseUint` of three bytes, with base 8 and 8 bits. -/
def octal : Path → Option UInt8
  | [a, b, c] =>
    let value := ((a.toNat - 48) * 8 + (b.toNat - 48)) * 8 + (c.toNat - 48)
    if [a, b, c].all (fun d => 48 ≤ d && d ≤ 55) && value < 256 then some value.toUInt8 else none
  | _ => none

def unescape : (skip : Nat) → Path → Path
  | _, [] => []
  | skip + 1, _ :: rest => unescape skip rest
  | 0, b :: rest =>
    match if b = backslash then octal (rest.take 3) else none with
    | some decoded => decoded :: unescape 3 rest
    | none => b :: unescape 0 rest

def unescapeMountInfoPath (value : Path) : Path :=
  if backslash ∈ value then unescape 0 value else value

/-- The characters of `unicode.IsSpace` in UTF-8. -/
def whiteSpace : List Path :=
  [[space], [9], [newline], [11], [12], [13], [0xc2, 0x85], [0xc2, 0xa0], [0xe1, 0x9a, 0x80],
    [0xe2, 0x80, 0xa8], [0xe2, 0x80, 0xa9], [0xe2, 0x80, 0xaf], [0xe2, 0x81, 0x9f],
    [0xe3, 0x80, 0x80]] ++ (range 11).map fun n => [0xe2, 0x80, 0x80 + n.toUInt8]

def white (text : Path) : Option Path := whiteSpace.find? (·.isPrefixOf text)

def fields : (skip : Nat) → (field : Path) → Path → List Path
  | _, field, [] => if field = [] then [] else [field]
  | skip + 1, field, _ :: rest => fields skip field rest
  | 0, field, b :: rest =>
    match white (b :: rest) with
    | none => fields 0 (field ++ [b]) rest
    | some s => (if field = [] then [] else [field]) ++ fields (s.length - 1) [] rest

def left : Path → Path
  | [] => []
  | b :: rest => if space :: (dash ++ [space]) <+: b :: rest then [] else b :: left rest

/-- Of `path/filepath`; `glob` is `Match`, without a result for a malformed pattern. -/
structure FilePath where
  clean : Path → Path
  join : Path → Path → Path
  rel : Path → Path → Option Path
  glob : Path → Path → Option Bool

section Table

variable (fp : FilePath) (root : Path) (bases exclusions : List Path)

def pathContains (parent child : Path) : Bool :=
  (fp.rel parent child).any fun relative =>
    relative ≠ [46, 46] && !([46, 46, 47] : Path).isPrefixOf relative

def excludedFromCapture (basePath mountpoint : Path) : Bool :=
  (fp.rel basePath mountpoint).any fun relative =>
    (exclusions.map fp.clean).any fun exclusion =>
      exclusion ≠ [46] && exclusion ≠ [] && (relative = exclusion ||
        (exclusion ++ [47]).isPrefixOf relative || fp.glob exclusion relative = some true)

def crosses (point base : Path) : Bool :=
  let basePath := fp.clean (fp.join root base)
  fp.clean point ≠ basePath && pathContains fp basePath (fp.clean point) &&
    !excludedFromCapture fp exclusions basePath (fp.clean point)

def checkLine (line : Path) : Option (Path × Path) :=
  (fields 0 [] (left line))[4]?.bind fun field =>
    let point := unescapeMountInfoPath field
    (bases.find? (crosses fp root exclusions point)).map fun base =>
      (fp.clean (fp.join root base), fp.clean point)

def checkCaptureMountpointsTable (table : Path) : Option (Path × Path) :=
  (table.splitOn newline).findSome? (checkLine fp root bases exclusions)

end Table

def Field (w : Path) : Prop := w ≠ [] ∧ w ≠ dash ∧ ∀ s ∈ w.tails, white s = none

instance (w : Path) : Decidable (Field w) := inferInstanceAs (Decidable (_ ∧ _ ∧ _))

structure Mount where
  numbers : List Path
  root : Path
  point : Path
  rest : Path
  three : numbers.length = 3
  field : ∀ w ∈ numbers, Field w
  line : newline ∉ rest

variable {hash : Bool} {path w rest : Path}

def Mount.print (hash : Bool) (m : Mount) : Path :=
  terminated space (m.numbers ++ [mangle hash m.root, mangle hash m.point]) ++ m.rest

def printTable (hash : Bool) (mounts : List Mount) : Path :=
  terminated newline (mounts.map (Mount.print hash))

theorem mangle_cons (b : UInt8) :
    mangle hash (b :: path) = mangle hash [b] ++ mangle hash path := by
  simp [mangle]

theorem mangled_byte : ∀ hash b, newline ∉ mangle hash [b] ∧
    (mangle hash [b] = [b] ∧ b ≠ backslash ∨
      mangle hash [b] = backslash :: (mangle hash [b]).tail ∧
        (mangle hash [b]).tail.length = 3 ∧ octal (mangle hash [b]).tail = some b) := by
  decide +kernel

theorem unescape_skip (skipped : Path) : unescape skipped.length (skipped ++ rest) =
    unescape 0 rest := by
  induction skipped with
  | nil => rfl
  | cons _ _ ih => exact ih

theorem unescape_mangle (path : Path) : unescape 0 (mangle hash path) = path := by
  induction path with
  | nil => rfl
  | cons b path ih =>
    rw [mangle_cons]
    rcases (mangled_byte hash b).2 with ⟨hplain, hb⟩ | ⟨hescaped, hlength, hoctal⟩
    · rw [hplain, singleton_append, unescape, if_neg hb, ih]
    · generalize (mangle hash [b]).tail = digits at *
      rw [hescaped, cons_append, unescape, if_pos rfl, ← hlength, take_left, hoctal]
      simp only [unescape_skip, ih]

theorem unescape_plain (h : backslash ∉ path) : unescape 0 path = path := by
  induction path with
  | nil => rfl
  | cons b path ih =>
    obtain ⟨hb, hrest⟩ := not_or.mp (mt mem_cons.mpr h)
    rw [unescape, if_neg (Ne.symm hb), ih hrest]

theorem unescapeMountInfoPath_mangle : unescapeMountInfoPath (mangle hash path) = path := by
  unfold unescapeMountInfoPath
  split_ifs with hmem
  · exact unescape_mangle path
  · rw [← unescape_plain hmem, unescape_mangle]

theorem white_append (hw : w ≠ []) (h : white w = none) (rest : Path) :
    white (w ++ space :: rest) = none := by
  simp only [white, find?_eq_none, isPrefixOf_iff_prefix] at h ⊢
  intro s hs hprefix
  -- a prefix that reaches the space contains it, and so is the space
  have hspace := (by decide : ∀ s ∈ whiteSpace, space ∈ s → s = [space]) s hs
  rcases prefix_or_prefix_of_prefix hprefix ⟨rest, append_assoc w [space] rest⟩ with hle | hle
  · rcases prefix_concat_iff.mp hle with rfl | hle
    · simp [hw] at hspace
    · exact h s hs hle
  · have hlength := hle.length_le
    rw [hspace (hle.subset (by simp))] at hlength
    simp [hw] at hlength

theorem fields_append (hw : ∀ s ∈ w.tails, white s = none) (field rest : Path) :
    fields 0 field w = fields 0 (field ++ w) [] ∧
      fields 0 field (w ++ space :: rest) = fields 0 (field ++ w) (space :: rest) := by
  induction w generalizing field with
  | nil => simp
  | cons b w ih =>
    rw [tails, forall_mem_cons] at hw
    have hnext := white_append (cons_ne_nil b w) hw.1 rest
    have hrest := ih hw.2 (field ++ [b])
    rw [append_assoc, singleton_append] at hrest
    rw [cons_append] at hnext ⊢
    constructor
    · rw [← hrest.1, fields, hw.1]
    · rw [← hrest.2, fields, hnext]

theorem Field.not_mem (h : Field w) {b : UInt8} (hb : [b] ∈ whiteSpace) : b ∉ w := by
  intro hmem
  obtain ⟨s, t, rfl⟩ := append_of_mem hmem
  have hnone := h.2.2 (b :: t) ((mem_tails _ _).mpr ⟨s, rfl⟩)
  exact find?_eq_none.mp hnone [b] hb (by simp)

theorem left_append (hw : space ∉ w) : left (w ++ space :: rest) =
    w ++ if dash ++ [space] <+: rest then [] else space :: left rest := by
  induction w with
  | nil => simp only [nil_append, left, cons_prefix_cons, true_and]
  | cons b w ih =>
    obtain ⟨hb, hrest⟩ := not_or.mp (mt mem_cons.mpr hw)
    rw [cons_append, left, if_neg (by simp [cons_prefix_cons, hb]), ih hrest, cons_append]

theorem Field.not_dash (h : Field w) : ¬ dash ++ [space] <+: w ++ space :: rest := by
  have hspace := h.not_mem (b := space) (by decide)
  obtain ⟨hne, hdash, -⟩ := h
  match w with
  | [] => exact absurd rfl hne
  | [b] => simpa [dash, cons_prefix_cons, eq_comm] using hdash
  | b :: c :: _ => simp_all [dash, cons_prefix_cons]

theorem fields_left (words : List Path) (hwords : ∀ w ∈ words, Field w) (rest : Path) :
    ∃ more, fields 0 [] (left (terminated space words ++ rest)) = words ++ more := by
  induction words with
  | nil => exact ⟨_, rfl⟩
  | cons w words ih =>
    obtain ⟨hw, hrest⟩ := forall_mem_cons.mp hwords
    obtain ⟨hlast, hfields⟩ := fields_append hw.2.2 [] (left (terminated space words ++ rest))
    rw [terminated_cons, append_assoc, cons_append, left_append (hw.not_mem (by decide))]
    split_ifs with hcut
    · cases words with
      | nil => exact ⟨[], by simp [hlast, fields, hw.1]⟩
      | cons next _ =>
        rw [terminated_cons, append_assoc, cons_append] at hcut
        exact absurd hcut (hrest next mem_cons_self).not_dash
    · obtain ⟨more, hmore⟩ := ih hrest
      refine ⟨more, ?_⟩
      rw [hfields, nil_append, fields]
      simp [white, whiteSpace, hw.1, hmore]

theorem Mount.newline_not_mem (m : Mount) : newline ∉ m.print hash := by
  have hmangle : ∀ path, newline ∉ mangle hash path := by
    intro path
    induction path with
    | nil => simp [mangle]
    | cons b path ih =>
      rw [mangle_cons, mem_append]
      exact not_or.mpr ⟨(mangled_byte hash b).1, ih⟩
  have hnumbers : ∀ w ∈ m.numbers, newline ∉ w := fun w hw => (m.field w hw).not_mem (by decide)
  have hline := m.line
  simp_all [print, terminated, space, newline]

def plainPaths : FilePath where
  clean := id
  join _ base := base
  rel parent child := if (parent ++ [47]).isPrefixOf child then some (child.drop parent.length.succ)
    else none
  glob _ _ := none

def mounted (tree : Path) : Mount where
  numbers := [[49], [49], [56, 58, 50]]
  root := [47]
  point := tree ++ [47, 118]
  rest := [114, 119]
  three := rfl
  field := by decide +kernel
  line := by decide

end Shiftgate.Checkpoint.Mounts
