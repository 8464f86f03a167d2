import Mathlib.Data.FinEnum
import Mathlib.Data.List.DropRight
import Shiftgate.Objectstore.S3Runs

/-! The URL of a request and what is signed of it, `internal/objectstore/s3.go`, with what Go's
`net/url` does in between: the path is escaped, sent, parsed and escaped again, and the query is
parsed and written again. -/

namespace Shiftgate.Objectstore.S3

open Library Securestore List

namespace Signing

def bytes (text : List Char) : Bytes := text.flatMap String.utf8EncodeChar

def slash : UInt8 := '/'.toUInt8

def hexDigit (n : UInt8) : UInt8 := if n < 10 then '0'.toUInt8 + n else 'A'.toUInt8 + (n - 10)

def percent (keep : UInt8 → Bool) (value : Bytes) : Bytes :=
  value.flatMap fun b =>
    if keep b then [b] else ['%'.toUInt8, hexDigit (b >>> 4), hexDigit (b &&& 15)]

def within (low high : Char) (b : UInt8) : Bool := low.toUInt8 ≤ b && b ≤ high.toUInt8

def unreserved (b : UInt8) : Bool :=
  within 'a' 'z' b || within 'A' 'Z' b || within '0' '9' b ||
    (bytes ['-', '_', '.', '~']).contains b

def awsEncode : Bytes → Bytes := percent unreserved

def reserved : Bytes := bytes ['$', '&', '+', ',', ':', ';', '=', '@']

def escape : Bytes → Bytes := percent fun b => unreserved b || b = slash || reserved.contains b

def unhex (b : UInt8) : Option UInt8 :=
  if within '0' '9' b then some (b - '0'.toUInt8)
  else if within 'a' 'f' b then some (b - 'a'.toUInt8 + 10)
  else if within 'A' 'F' b then some (b - 'A'.toUInt8 + 10)
  else none

def unescape (query : Bool) : Bytes → Option Bytes
  | [] => some []
  | b :: rest =>
    if b = '%'.toUInt8 then
      match rest with
      | high :: low :: rest => do
        let high ← unhex high
        let low ← unhex low
        let rest ← unescape query rest
        some ((high <<< 4 ||| low) :: rest)
      | _ => none
    else (unescape query rest).map ((if query && b = '+'.toUInt8 then ' '.toUInt8 else b) :: ·)

section Percent

variable {keep keep' : UInt8 → Bool} {value : Bytes} {b : UInt8}

theorem hex_read : ∀ b : UInt8, unhex (hexDigit (b >>> 4)) = some (b >>> 4) ∧
    unhex (hexDigit (b &&& 15)) = some (b &&& 15) ∧ b >>> 4 <<< 4 ||| (b &&& 15) = b ∧
    unreserved (hexDigit (b >>> 4)) ∧ unreserved (hexDigit (b &&& 15)) := by decide +kernel

theorem unescape_percent {query : Bool} (hpercent : keep '%'.toUInt8 = false)
    (hplus : query → keep '+'.toUInt8 = false) :
    unescape query (percent keep value) = some value := by
  induction value with
  | nil => rfl
  | cons b rest ih =>
    rw [percent, flatMap_cons, ← percent]
    by_cases hb : keep b
    · have hne : b ≠ '%'.toUInt8 := by
        rintro rfl
        simp [hb] at hpercent
      have hkept : (query && b = '+'.toUInt8) = false := by
        cases query with
        | false => rfl
        | true => simpa using ne_of_apply_ne keep (by simp [hb, hplus])
      rw [if_pos hb, singleton_append, unescape.eq_def]
      simp [hne, ih, hkept]
    · obtain ⟨hhigh, hlow, hbyte, -, -⟩ := hex_read b
      simp [hb, unescape, hhigh, hlow, ih, hbyte]

theorem percent_eq_iff (h : keep '%'.toUInt8 = false) (h' : keep' '%'.toUInt8 = false) :
    percent keep value = percent keep' value ↔ ∀ b ∈ value, keep b = keep' b := by
  refine ⟨fun heq => ?_, fun hsame => ?_⟩
  · induction value with
    | nil => simp
    | cons b rest ih =>
      simp only [percent, flatMap_cons] at heq
      have hkeep : keep b = keep' b := by
        by_cases hb : b = '%'.toUInt8
        · rw [hb, h, h']
        · cases hk : keep b <;> cases hk' : keep' b <;> simp [hk, hk', hb, Ne.symm hb] at heq ⊢
      rw [hkeep] at heq
      exact forall_mem_cons.mpr ⟨hkeep, ih (append_cancel_left heq)⟩
  · refine flatMap_congr fun b hb => ?_
    rw [hsame b hb]

theorem percent_splitOn : percent (fun b => unreserved b || b = slash) value =
    intercalate [slash] ((value.splitOn slash).map awsEncode) := by
  induction value with
  | nil => rfl
  | cons b rest ih =>
    obtain ⟨first, others, hsplit⟩ := exists_cons_of_ne_nil (splitOn_ne_nil slash rest)
    rw [percent, flatMap_cons, ← percent, ih, splitOn_cons_eq_if_modifyHead, hsplit]
    by_cases hb : b = slash
    · simp [hb, awsEncode, percent, intercalate_cons_cons]
    · cases others <;> simp [hb, awsEncode, percent, intercalate_cons_cons]

theorem mem_awsEncode (h : b ∈ awsEncode value) : unreserved b ∨ b = '%'.toUInt8 := by
  obtain ⟨c, -, hb⟩ := mem_flatMap.mp h
  obtain ⟨-, -, -, hhigh, hlow⟩ := hex_read c
  split_ifs at hb with hc
  · rw [mem_singleton.mp hb]
    exact .inl hc
  · simp only [mem_cons, not_mem_nil, or_false] at hb
    rcases hb with rfl | rfl | rfl
    · exact .inr rfl
    · exact .inl hhigh
    · exact .inl hlow

end Percent

structure URL where
  host : String
  path : Bytes
  rawPath : Bytes
  rawQuery : Bytes

def validEncoded (path : Bytes) : Bool :=
  path.all fun b => unreserved b || b = slash || reserved.contains b ||
    (bytes ['!', '\'', '(', ')', '*', '[', ']', '%']).contains b

def URL.escapedPath (u : URL) : Bytes :=
  if u.rawPath ≠ [] ∧ validEncoded u.rawPath ∧ unescape false u.rawPath = some u.path then u.rawPath
  else if u.path = ['*'.toUInt8] then u.path
  else escape u.path

def request (u : URL) : Option URL :=
  (unescape false u.escapedPath).map fun path =>
    { u with path, rawPath := if escape path = u.escapedPath then [] else u.escapedPath }

def canonicalURI (u : URL) : Bytes := if u.escapedPath = [] then [slash] else u.escapedPath

/-- `url.Values`, in the order of an iteration. -/
abbrev Values := List (Bytes × List Bytes)

def pairs (values : Values) : List (Bytes × Bytes) :=
  values.flatMap fun (key, entries) =>
    (if entries = [] then [[]] else entries).map fun value => (awsEncode key, awsEncode value)

abbrev Ordered : Bytes × Bytes → Bytes × Bytes → Prop := Prod.Lex (· < ·) (· ≤ ·)

def join (pairs : List (Bytes × Bytes)) : Bytes :=
  intercalate ['&'.toUInt8] (pairs.map fun p => p.1 ++ '='.toUInt8 :: p.2)

def canonicalQuery (values : Values) : Bytes := join ((pairs values).insertionSort Ordered)

def add (key value : Bytes) : Values → Values
  | [] => [(key, [value])]
  | (k, entries) :: rest =>
    if k = key then (k, entries ++ [value]) :: rest else (k, entries) :: add key value rest

def parsePart (values : Values) (part : Bytes) : Values :=
  if part.contains ';'.toUInt8 ∨ part = [] then values
  else
    match unescape true (part.takeWhile (· ≠ '='.toUInt8)),
      unescape true ((part.dropWhile (· ≠ '='.toUInt8)).tail) with
    | some key, some value => add key value values
    | _, _ => values

def parseQuery (raw : Bytes) : Values := (raw.splitOn '&'.toUInt8).foldl parsePart []

section Query

variable {values values' : Values} {key value : Bytes} {p q : Bytes × Bytes}

theorem notMem_awsEncode {b : UInt8} (hb : unreserved b = false) (hne : b ≠ '%'.toUInt8) :
    b ∉ awsEncode value := fun hmem => (mem_awsEncode hmem).elim (by simp [hb]) hne

theorem parsePart_encoded : parsePart values (awsEncode key ++ '='.toUInt8 :: awsEncode value) =
    add key value values := by
  have hread (text : Bytes) : unescape true (awsEncode text) = some text :=
    unescape_percent (by decide) fun _ => by decide
  have hname : ∀ b ∈ awsEncode key, decide (b ≠ '='.toUInt8) = true := fun b hb =>
    decide_eq_true (ne_of_mem_of_not_mem hb (notMem_awsEncode (by decide) (by decide)))
  have hsemicolon (text : Bytes) : ';'.toUInt8 ∉ awsEncode text :=
    notMem_awsEncode (by decide) (by decide)
  rw [parsePart, if_neg (by simp [hsemicolon, show ';'.toUInt8 ≠ '='.toUInt8 by decide]),
    takeWhile_append_of_pos hname, dropWhile_append_of_pos hname]
  simp [hread]

def Filled (values : Values) : Prop := ∀ e ∈ values, e.2 ≠ []

theorem add_pairs (key value : Bytes) (h : Filled values) : Filled (add key value values) ∧
    (pairs (add key value values)).Perm ((awsEncode key, awsEncode value) :: pairs values) := by
  induction values with
  | nil => exact ⟨by simp [add, Filled], by simp [add, pairs]⟩
  | cons e rest ih =>
    obtain ⟨he, hrest⟩ := forall_mem_cons.mp h
    obtain ⟨hfilled, hperm⟩ := ih hrest
    simp only [add]
    split_ifs with hkey
    · refine ⟨forall_mem_cons.mpr ⟨by simp, hrest⟩, ?_⟩
      simp [pairs, he, ← hkey]
    · refine ⟨forall_mem_cons.mpr ⟨he, hfilled⟩, ?_⟩
      exact (hperm.append_left _).trans perm_middle

theorem pairs_encoded (h : p ∈ pairs values) :
    ∃ key value, p = (awsEncode key, awsEncode value) := by
  obtain ⟨e, -, hp⟩ := mem_flatMap.mp h
  obtain ⟨value, -, rfl⟩ := mem_map.mp hp
  exact ⟨_, _, rfl⟩

theorem parsed_pairs {parts : List (Bytes × Bytes)} (h : Filled values)
    (hparts : ∀ p ∈ parts, ∃ key value, p = (awsEncode key, awsEncode value)) :
    (pairs ((parts.map fun p => p.1 ++ '='.toUInt8 :: p.2).foldl parsePart values)).Perm
      (parts ++ pairs values) := by
  induction parts generalizing values with
  | nil => rfl
  | cons p rest ih =>
    obtain ⟨⟨key, value, rfl⟩, hrest⟩ := forall_mem_cons.mp hparts
    obtain ⟨hfilled, hperm⟩ := add_pairs key value h
    rw [map_cons, foldl_cons, parsePart_encoded]
    exact (ih hfilled hrest).trans ((hperm.append_left _).trans perm_middle)

theorem parseQuery_join {parts : List (Bytes × Bytes)}
    (hparts : ∀ p ∈ parts, ∃ key value, p = (awsEncode key, awsEncode value)) :
    (pairs (parseQuery (join parts))).Perm parts := by
  by_cases hnil : parts = []
  · subst hnil
    decide
  have hclean : ∀ text ∈ parts.map fun p => p.1 ++ '='.toUInt8 :: p.2, '&'.toUInt8 ∉ text := by
    intro text htext
    obtain ⟨p, hp, rfl⟩ := mem_map.mp htext
    obtain ⟨key, value, rfl⟩ := hparts p hp
    have hfree (text : Bytes) : '&'.toUInt8 ∉ awsEncode text :=
      notMem_awsEncode (by decide) (by decide)
    simp [hfree, show '&'.toUInt8 ≠ '='.toUInt8 by decide]
  rw [parseQuery, join, splitOn_intercalate _ hclean (by simpa using hnil)]
  simpa [pairs] using parsed_pairs (show Filled [] from nofun) hparts

theorem Ordered.antisymm (h : Ordered p q) (h' : Ordered q p) : p = q := by
  rcases Prod.lex_def.mp h with hlt | ⟨heq, hle⟩ <;>
    rcases Prod.lex_def.mp h' with hlt' | ⟨heq', hle'⟩
  · exact absurd hlt' (Std.Asymm.asymm _ _ hlt)
  · exact absurd (heq' ▸ hlt) (List.lt_irrefl _)
  · exact absurd (heq ▸ hlt') (List.lt_irrefl _)
  · exact Prod.ext heq (List.le_antisymm hle hle')

theorem canonicalQuery_unique (h : (pairs values).Perm (pairs values')) :
    canonicalQuery values = canonicalQuery values' := by
  have hsort := (perm_insertionSort Ordered (pairs values)).trans
    (h.trans (perm_insertionSort Ordered (pairs values')).symm)
  rw [canonicalQuery, hsort.eq_of_pairwise (fun _ _ _ _ => Ordered.antisymm)
    (pairwise_insertionSort ..) (pairwise_insertionSort ..), canonicalQuery]

end Query

/-- The fields of an open store that a URL is built from. A parsed endpoint has no raw path, or one
for its path, and the configured prefix has lost the slashes around it. -/
structure Signer where
  config : Config
  endpoint : URL
  hostname : String
  bucket : String
  forcePathStyle : Bool
  raw : endpoint.rawPath = [] ∨ unescape false endpoint.rawPath = some endpoint.path
  trimmed : config.keyPrefix.toList.head? ≠ some '/'

namespace Signer

variable (s : Signer)

def pathStyle : Bool :=
  s.forcePathStyle || "localhost".toList <:+: s.hostname.toList ||
    "127.".toList.isPrefixOf s.hostname.toList

def root : Bytes :=
  s.endpoint.path.rdropWhile (· = slash) ++
    if s.pathStyle then slash :: bytes s.bucket.toList else []

def objectURL (key : String) (query : Values) : URL :=
  { s.endpoint with
    host := if s.pathStyle then s.endpoint.host else s.bucket ++ "." ++ s.endpoint.host
    path := s.root ++ slash :: bytes (key.toList.dropWhile (· = '/'))
    rawQuery := canonicalQuery query }

variable {s} {key full : String} {query : Values}

theorem fullKey_head (h : fullKey s.config key = .ok full) :
    ∃ c rest, full.toList = c :: rest ∧ c ≠ '/' := by
  unfold fullKey at h
  split at h
  · cases h
  · rename_i hvalid
    cases h
    have hkey : key ≠ "" ∧ key.toList.head? ≠ some '/' := by
      unfold validateKey at hvalid
      constructor <;> intro hbad <;> simp [hbad] at hvalid
    have htrimmed := s.trimmed
    split_ifs with hprefix
    · cases hlist : key.toList with
      | nil => exact absurd (String.toList_inj.mp hlist) hkey.1
      | cons c rest => exact ⟨c, rest, rfl, by simpa [hlist] using hkey.2⟩
    · cases hlist : s.config.keyPrefix.toList with
      | nil => exact absurd (String.toList_inj.mp hlist) hprefix
      | cons c rest =>
        exact ⟨c, rest ++ '/' :: key.toList, by simp [hlist], by simpa [hlist] using htrimmed⟩

theorem exists_ne_slash {c : Char} (h : c ≠ '/') : ∃ b ∈ String.utf8EncodeChar c, b ≠ slash := by
  have hc : c.val.toNat ≠ 47 := fun hc => h (Char.ext (UInt32.toNat.inj hc))
  have hslash : slash.toNat = 47 := rfl
  unfold String.utf8EncodeChar
  generalize c.val.toNat = v at hc
  dsimp only
  split_ifs <;> refine ⟨_, mem_cons_self, ne_of_apply_ne UInt8.toNat ?_⟩ <;>
    rw [UInt8.toNat_ofNat', hslash] <;> omega

theorem raw_ne (h : fullKey s.config key = .ok full) : s.endpoint.rawPath = [] ∨
    unescape false s.endpoint.rawPath ≠ some (s.root ++ slash :: bytes full.toList) := by
  refine s.raw.imp_right fun hraw heq => ?_
  obtain ⟨c, rest, hfull, hc⟩ := fullKey_head h
  obtain ⟨b, hb, hne⟩ := exists_ne_slash hc
  rw [hraw, Option.some_inj, root, append_assoc] at heq
  have htail := append_cancel_left (rdropWhile_append_rtakeWhile.trans heq)
  have hmem : b ∈ s.endpoint.path.rtakeWhile (· = slash) := by
    rw [htail]
    simp [hfull, bytes, hb]
  exact hne (by simpa using mem_rtakeWhile_imp hmem)

end Signer

theorem unescape_escape (value : Bytes) : unescape false (escape value) = some value :=
  unescape_percent (by decide) nofun

section Sent

variable {u : URL} (hslash : slash ∈ u.path)
  (hraw : u.rawPath = [] ∨ unescape false u.rawPath ≠ some u.path)

include hslash hraw

theorem escapedPath_eq : u.escapedPath = escape u.path := by
  unfold URL.escapedPath
  rw [if_neg, if_neg]
  · intro hpath
    rw [hpath] at hslash
    revert hslash
    decide
  · rintro ⟨hne, -, heq⟩
    exact hraw.elim hne (· heq)

theorem request_eq : request u = some { u with rawPath := [] } := by
  simp [request, escapedPath_eq hslash hraw, unescape_escape]

end Sent

/-- The path is signed in AWS's form exactly when it has none of the eight reserved bytes that Go
leaves alone. The path that is sent means the bucket and the full key, and the query is signed in
AWS's form, in every case. -/
theorem signed_canonically_iff {s : Signer} {key full : String}
    (h : fullKey s.config key = .ok full) (query : Values) :
    ∃ sent, request (s.objectURL full query) = some sent ∧
      (canonicalURI sent = intercalate [slash] ((sent.path.splitOn slash).map awsEncode) ↔
        ∀ b ∈ reserved, b ∉ sent.path) ∧
      unescape false sent.escapedPath = some (s.root ++ slash :: bytes full.toList) ∧
      sent.host = (if s.pathStyle then s.endpoint.host else s.bucket ++ "." ++ s.endpoint.host) ∧
      ∃ sorted, sorted.Perm (pairs query) ∧ sorted.Pairwise Ordered ∧
        ∀ values, values.Perm (parseQuery sent.rawQuery) → canonicalQuery values = join sorted := by
  obtain ⟨c, rest, hfull, hc⟩ := Signer.fullKey_head h
  have hpath : (s.objectURL full query).path = s.root ++ slash :: bytes full.toList := by
    simp [Signer.objectURL, hfull, hc]
  have hslash : slash ∈ (s.objectURL full query).path := by simp [hpath]
  have hraw := hpath ▸ Signer.raw_ne h
  have hsent :=
    escapedPath_eq (u := { s.objectURL full query with rawPath := [] }) hslash (.inl rfl)
  have hnonempty : escape (s.objectURL full query).path ≠ [] := by
    intro hnil
    have hread := unescape_escape (s.objectURL full query).path
    rw [hnil, unescape, Option.some_inj] at hread
    simp [← hread] at hslash
  have hperm := perm_insertionSort Ordered (pairs query)
  refine ⟨_, request_eq hslash hraw, ?_, ?_, rfl, _, hperm, pairwise_insertionSort .., ?_⟩
  · rw [canonicalURI, hsent, if_neg hnonempty, ← percent_splitOn, escape,
      percent_eq_iff (by decide) (by decide)]
    refine ⟨fun hsame b hb hmem => ?_, fun hfree b hmem => ?_⟩
    · have : ∀ b ∈ reserved, (unreserved b || b = slash || reserved.contains b) ≠
          (unreserved b || b = slash) := by decide +kernel
      exact this b hb (hsame b hmem)
    · have : b ∉ reserved := fun hb => hfree b hb hmem
      simp [this]
  · rw [hsent, unescape_escape, ← hpath]
  · intro values hvalues
    refine canonicalQuery_unique ((hvalues.flatMap_right _).trans ?_)
    exact (parseQuery_join fun p hp => pairs_encoded (hperm.subset hp)).trans hperm

def sampleSigner : Signer where
  config := Sample.config "p"
  endpoint := ⟨"s3.test", [], [], []⟩
  hostname := "s3.test"
  bucket := "b"
  forcePathStyle := true
  raw := .inl rfl
  trimmed := by decide

theorem plain_key_signed_canonically : ∃ sent,
    request (sampleSigner.objectURL "p/a" []) = some sent ∧ (∀ b ∈ reserved, b ∉ sent.path) ∧
      canonicalURI sent = intercalate [slash] ((sent.path.splitOn slash).map awsEncode) := by
  refine exists_some_and (by decide +kernel) fun sent hsent hfree => ?_
  obtain ⟨sent', hsent', huri, -⟩ :=
    signed_canonically_iff (show fullKey sampleSigner.config "a" = .ok "p/a" by decide) []
  cases hsent.symm.trans hsent'
  exact huri.mpr hfree

/-- A plus in a key is signed as it stands. -/
theorem plus_signed_unencoded : ∃ sent, fullKey (Sample.config "p") "a+b" = .ok "p/a+b" ∧
    request (sampleSigner.objectURL "p/a+b" []) = some sent ∧
      canonicalURI sent = bytes "/b/p/a+b".toList ∧
      intercalate [slash] ((sent.path.splitOn slash).map awsEncode) =
        bytes "/b/p/a%2Bb".toList := by
  simp only [exists_and_left]
  decide

end Signing

end Shiftgate.Objectstore.S3
