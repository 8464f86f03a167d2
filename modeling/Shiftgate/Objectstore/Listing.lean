import Mathlib.Data.List.Lex
import Mathlib.Data.Char
import Mathlib.Tactic

/-! `ListPrefix` of `internal/objectstore/s3.go`: the listing of a bucket, page by page;
`listPrefix_eq` says that the pages together are exactly the objects under the prefix. -/

namespace Shiftgate.Objectstore

open List

structure ListedObject where
  key : String
  size : Nat

structure Listing where
  objects : List ListedObject
  sorted : objects.Pairwise fun a b => a.key.toList < b.key.toList
  named : ∀ o ∈ objects, o.key ≠ ""
  bounded : (objects.map (·.size)).sum < 2 ^ 63

def hasPrefix (text start : String) : Bool := start.toList.isPrefixOf text.toList

def trimSlashes (text : String) : String :=
  String.ofList
    ((text.toList.dropWhile (· = '/')).reverse.dropWhile (· = '/')).reverse

structure ListObjectsResult where
  contents : List ListedObject
  isTruncated : Bool
  nextContinuationToken : String

def Listing.after (b : Listing) (start token : String) : List ListedObject :=
  b.objects.filter fun o => hasPrefix o.key start && (token = "" || token.toList < o.key.toList)

def Listing.page (b : Listing) (start token : String) (limit : Nat) : ListObjectsResult :=
  let rest := b.after start token
  let contents := rest.take limit
  if limit < rest.length then ⟨contents, true, (contents.getLast?.map (·.key)).getD ""⟩
  else ⟨contents, false, ""⟩

inductive ListError where
  | remote
  /-- The visitor stopped the walk. -/
  | stopped
  deriving DecidableEq

section Walk

variable {σ : Type} (b : Listing) (root : String) (answers : Nat → Option Nat)
  (visit : σ → ListedObject → Except ListError σ)

def externalListed (o : ListedObject) : ListedObject :=
  if root ≠ "" ∧ hasPrefix o.key (root ++ "/") then
    { o with key := String.ofList (o.key.toList.drop (root ++ "/").toList.length) }
  else o

/-- `answers i` is one less than the service's page size, or `none` when the request fails; the
result is `none` only when the fuel runs out. -/
def listPages (start : String) : Nat → Nat → String → σ → Option (Except ListError σ)
  | 0, _, _, _ => none
  | fuel + 1, i, token, seen =>
    match answers i with
    | none => some (.error .remote)
    | some extra =>
      let page := b.page start token (extra + 1)
      match page.contents.foldlM (fun s o => visit s (externalListed root o)) seen with
      | .error e => some (.error e)
      | .ok seen =>
        if !page.isTruncated || page.nextContinuationToken = "" then some (.ok seen)
        else listPages start fuel (i + 1) page.nextContinuationToken seen

def fullPrefix (start : String) : String :=
  if start = "" then root
  else (if root = "" then root else root ++ "/") ++ trimSlashes start

def listPrefix (start : String) (initial : σ) : Option (Except ListError σ) :=
  listPages b root answers visit (fullPrefix root start) (b.objects.length + 1) 0 "" initial

end Walk

theorem trimSlashes_append {text : String} (hhead : ∀ c ∈ text.toList.head?, c ≠ '/')
    (hlast : ∀ c ∈ text.toList.getLast?, c ≠ '/') : trimSlashes (text ++ "/") = text := by
  apply String.toList_injective
  have hkept : ∀ xs : List Char, (∀ c ∈ xs.head?, c ≠ '/') → xs.dropWhile (· = '/') = xs := by
    intro xs hxs
    cases xs with
    | nil => rfl
    | cons x rest => simp [hxs x rfl]
  simp only [trimSlashes, String.toList_append, String.toList_ofList]
  have hslash : "/".toList = ['/'] := rfl
  cases hempty : text.toList with
  | nil => decide
  | cons first rest =>
    have hfirst : first ≠ '/' := hhead first (by simp [hempty])
    have hfront : (first :: rest ++ "/".toList).dropWhile (· = '/') =
        first :: rest ++ "/".toList := hkept _ (by simpa using hfirst)
    rw [hfront, hslash, reverse_append, reverse_singleton, singleton_append,
      dropWhile_cons_of_pos (by simp), hkept _ ?_, reverse_reverse]
    rw [head?_reverse, ← hempty]
    exact hlast

section Pages

variable {σ : Type} {b : Listing} {root : String} {answers : Nat → Option Nat}
  {visit : σ → ListedObject → Except ListError σ} {start token : String}

theorem filter_above_last {α κ : Type} [LinearOrder κ] {key : α → κ} {xs : List α} {k : Nat} {x : α}
    (hsorted : xs.Pairwise fun a b => key a < key b) (hlast : (xs.take k).getLast? = some x) :
    xs.filter (fun y => key x < key y) = xs.drop k := by
  obtain ⟨front, hfront⟩ := getLast?_eq_some_iff.mp hlast
  have hsplit : xs = front ++ [x] ++ xs.drop k := by
    rw [← hfront, take_append_drop]
  rw [hsplit, append_assoc, pairwise_append] at hsorted
  obtain ⟨-, hback, hcross⟩ := hsorted
  have hbelow : (front ++ [x]).filter (fun y => key x < key y) = [] := by
    refine filter_eq_nil_iff.mpr fun y hy => ?_
    rcases mem_append.mp hy with hy | hy
    · have := hcross y hy x (by simp)
      simp [this.le]
    · simp [mem_singleton.mp hy]
  have habove : (xs.drop k).filter (fun y => key x < key y) = xs.drop k := by
    refine filter_eq_self.mpr fun y hy => ?_
    rw [singleton_append, pairwise_cons] at hback
    simp [hback.1 y hy]
  conv_lhs => rw [hsplit]
  rw [filter_append, hbelow, habove, nil_append]

theorem Listing.after_last {limit : Nat} {last : ListedObject}
    (hlast : ((b.after start token).take limit).getLast? = some last) :
    b.after start last.key = (b.after start token).drop limit := by
  have hsorted : (b.after start token).Pairwise fun a b => a.key.toList < b.key.toList :=
    b.sorted.filter _
  rw [← filter_above_last hsorted hlast]
  have hmem := mem_of_mem_take (mem_of_getLast? hlast)
  obtain ⟨hobject, htoken⟩ := mem_filter.mp hmem
  have hnamed : last.key ≠ "" := b.named last hobject
  unfold Listing.after
  rw [filter_filter]
  refine filter_congr fun o _ => ?_
  simp only [Bool.and_eq_true, Bool.or_eq_true, decide_eq_true_eq] at htoken
  by_cases habove : last.key.toList < o.key.toList
  · have hlater : token = "" ∨ token.toList < o.key.toList :=
      htoken.2.imp_right fun h => h.trans habove
    simp [habove, hlater]
  · simp [habove, hnamed]

theorem listPages_walk {fuel : Nat} : ∀ (i : Nat) (token : String) (seen : σ),
    (b.after start token).length < fuel →
      (listPages b root answers visit start fuel i token seen = some (.error .remote) ∧
        ∃ j, answers j = none) ∨
      listPages b root answers visit start fuel i token seen =
        some ((b.after start token).foldlM (fun s o => visit s (externalListed root o)) seen) := by
  induction fuel with
  | zero => exact fun _ _ _ h => absurd h (by omega)
  | succ fuel ih =>
    intro i token seen hfuel
    cases hanswer : answers i with
    | none => exact .inl ⟨by simp only [listPages, hanswer], i, hanswer⟩
    | some extra =>
      simp only [listPages, hanswer]
      by_cases hmore : extra + 1 < (b.after start token).length
      · have hne : (b.after start token).take (extra + 1) ≠ [] := by
          intro h
          have := congrArg List.length h
          simp only [length_take, length_nil] at this
          omega
        obtain ⟨last, hlast⟩ :
            ∃ last, ((b.after start token).take (extra + 1)).getLast? = some last :=
          ⟨_, getLast?_eq_some_getLast hne⟩
        have hnamed : last.key ≠ "" :=
          b.named last (mem_filter.mp (mem_of_mem_take (mem_of_getLast? hlast))).1
        have hpage : b.page start token (extra + 1) =
            ⟨(b.after start token).take (extra + 1), true, last.key⟩ := by
          simp [Listing.page, hmore, hlast]
        have hrest := ih (i + 1) last.key
        rw [Listing.after_last hlast] at hrest
        conv => rhs; rw [← take_append_drop (extra + 1) (b.after start token), foldlM_append]
        rw [hpage]
        dsimp only
        cases List.foldlM (fun s o => visit s (externalListed root o)) seen
          ((b.after start token).take (extra + 1)) with
        | error e => exact .inr rfl
        | ok seen' =>
          simp only [Bool.not_true, Bool.false_or, decide_eq_true_eq, hnamed, if_false]
          exact hrest seen' (by rw [length_drop]; omega)
      · have hpage : b.page start token (extra + 1) = ⟨b.after start token, false, ""⟩ := by
          simp only [Listing.page, if_neg hmore]
          rw [take_of_length_le (by omega)]
        rw [hpage]
        dsimp only
        cases List.foldlM (fun s o => visit s (externalListed root o)) seen
          (b.after start token) with
        | error e => exact .inr rfl
        | ok seen' => exact .inr rfl

/-- The walk visits every object under the full prefix, once, in the order of the keys, unless a
request fails. -/
theorem listPrefix_walk (b : Listing) (root : String) (answers : Nat → Option Nat)
    (visit : σ → ListedObject → Except ListError σ) (start : String) (initial : σ) :
    (listPrefix b root answers visit start initial = some (.error .remote) ∧
      ∃ j, answers j = none) ∨
    listPrefix b root answers visit start initial =
      some ((b.objects.filter fun o => hasPrefix o.key (fullPrefix root start)).foldlM
        (fun s o => visit s (externalListed root o)) initial) := by
  have hafter : b.after (fullPrefix root start) "" =
      b.objects.filter fun o => hasPrefix o.key (fullPrefix root start) := by
    simp [Listing.after]
  rw [← hafter]
  refine listPages_walk 0 "" initial ?_
  exact Nat.lt_succ_of_le (length_filter_le _ _)

end Pages

end Shiftgate.Objectstore
