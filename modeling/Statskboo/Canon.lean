import Mathlib.Algebra.Order.Field.Rat
import Mathlib.Data.List.Destutter
import Mathlib.Data.List.MinMax
import Mathlib.Data.List.Sort
import Mathlib.Data.Prod.Lex
import Statskboo.Text

/-!
# Canonical names and trigram similarity

Leagues, teams and players are compared by canonical forms: lowercase,
alphanumeric characters only.  The matcher compares two canonical names by the
share of three-character windows they have in common, as {lit}`pg_trgm` does.
A trigram set is kept sorted and without duplicates by its type, and the
similarity of two sets is an exact fraction.

Main results:

- Theorem {lit}`sortDedup_ascending`: sorting and dropping repetitions leaves a
  strictly ascending list, which {lit}`TrigramSet` records in its type.
-/

namespace Statskboo
namespace Canon

open Text

section Names

variable [UnicodeTables]

/-- Keep the alphanumeric characters, lowercased one by one. -/
def canonicalizeLeague (league : String) : String :=
  String.ofList
    ((league.toList.filter UnicodeTables.isAlphanumeric).flatMap UnicodeTables.charToLowercase)

/-- The canonical team name without the words of its league, or of the whole team
name when nothing remains. -/
def canonicalizeTeam (league : Option String) (team : String) : String :=
  let leagueWords :=
    (splitWhitespace (league.getD "").toList).map UnicodeTables.strToLowercase
  let filtered := (splitWhitespace team.toList).filter fun w =>
    !leagueWords.contains (UnicodeTables.strToLowercase w)
  let result := canonicalizeLeague (String.ofList ([' '].intercalate filtered))
  if result.isEmpty then canonicalizeLeague team else result

/-- Drop the leading captain markers, parenthetical groups that hold just a
{lit}`c`; each round removes at least the two parentheses, so the length bounds
the rounds. -/
def stripCaptainMarkers : Nat → List Char → List Char
  | 0, s => s
  | fuel + 1, s =>
      let before := s.takeWhile (· ≠ '(')
      match s.dropWhile (· ≠ '(') with
      | [] => s
      | _ :: afterOpen =>
          let content := afterOpen.takeWhile (· ≠ ')')
          match afterOpen.dropWhile (· ≠ ')') with
          | [] => s
          | _ :: afterClose =>
              if trim content = ['c'] then stripCaptainMarkers fuel (before ++ afterClose)
              else s

/-- Canonical form of a player name, captain markers stripped. -/
def canonicalizeName (name : String) : String :=
  let s := UnicodeTables.strToLowercase (trim name.toList)
  String.ofList ((stripCaptainMarkers s.length s).filter UnicodeTables.isAlphanumeric)

end Names

/-! ## Display names -/

section BestName

variable [CaseTables]

/-- Shorter names before longer ones, then fewer uppercase letters, then alphabetical. -/
def nameRank (name : String) : ℕ ×ₗ ℕ ×ₗ String :=
  toLex (name.utf8ByteSize,
    toLex (name.toList.countP CaseTables.isUppercase,
      String.ofList (UnicodeTables.strToLowercase name.toList)))

/-- The best display name from a group of equivalent names: {lit}`min_by`, which picks the
first one of the least rank. -/
def bestName (names : List String) : Option String :=
  names.argmin nameRank

end BestName

/-! ## Trigram sets -/

/-- Three consecutive characters of a padded word.  The word is ASCII, so its
characters are its bytes. -/
abbrev Trigram := Char ×ₗ Char ×ₗ Char

/-- Every three-character window, from left to right. -/
def windows : List Char → List Trigram
  | a :: b :: c :: rest => toLex (a, toLex (b, c)) :: windows (b :: c :: rest)
  | _ => []

/-- A character that trigrams are built from: {lit}`[a-z0-9]`. -/
def isTrigramChar (c : Char) : Bool :=
  c.isLower || c.isDigit

/-- The windows of one word, padded with two blanks before and one after. -/
def wordTrigrams (word : List Char) : List Trigram :=
  windows (' ' :: ' ' :: (word ++ [' ']))

/-- {lit}`sort_unstable` followed by {lit}`dedup`. -/
def sortDedup (grams : List Trigram) : List Trigram :=
  (grams.insertionSort (· ≤ ·)).destutter (· ≠ ·)

/-- Sorting and dropping adjacent repetitions leaves a strictly ascending list. -/
theorem sortDedup_ascending (grams : List Trigram) : (sortDedup grams).Pairwise (· < ·) := by
  have hle := (List.pairwise_insertionSort (· ≤ ·) grams).sublist
    (List.destutter_sublist (· ≠ ·) _)
  have hne := List.isChain_destutter (· ≠ ·) (grams.insertionSort (· ≤ ·))
  rw [← List.isChain_iff_pairwise, List.isChain_iff_getElem] at hle ⊢
  rw [List.isChain_iff_getElem] at hne
  exact fun i hi => lt_of_le_of_ne (hle i hi) (hne i hi)

variable [UnicodeTables]

/-- The trigrams of {lit}`s`, sorted and deduplicated. -/
def trigrams (s : String) : List Trigram :=
  let lowered := UnicodeTables.strToLowercase s.toList
  let words := (lowered.splitOnP fun c => !isTrigramChar c).filter fun w => !w.isEmpty
  sortDedup (words.flatMap wordTrigrams)

/-- The trigrams of one name, sorted and without duplicates. -/
structure TrigramSet where
  grams : List Trigram
  ascending : grams.Pairwise (· < ·)

/-- Precompute the trigrams of a name. -/
def TrigramSet.new (s : String) : TrigramSet where
  grams := trigrams s
  ascending := sortDedup_ascending _

omit [UnicodeTables]

/-- The merge loop that counts the common elements of two ascending lists; every
round advances one cursor, so the two lengths bound the rounds. -/
def intersectionLoop : Nat → List Trigram → List Trigram → Nat → Nat
  | fuel + 1, x :: xs, y :: ys, intersection =>
      if x = y then intersectionLoop fuel xs ys (intersection + 1)
      else if x < y then intersectionLoop fuel xs (y :: ys) intersection
      else intersectionLoop fuel (x :: xs) ys intersection
  | _, _, _, intersection => intersection

/-- Jaccard similarity of two sorted, deduplicated trigram lists. -/
def trigramSimilarity (a b : List Trigram) : ℚ :=
  if a.isEmpty || b.isEmpty then 0
  else
    let intersection := intersectionLoop (a.length + b.length) a b 0
    let union := a.length + b.length - intersection
    (intersection : ℚ) / union

/-- {lit}`|intersection| / |union|` of two trigram sets. -/
def TrigramSet.similarity (a b : TrigramSet) : ℚ :=
  trigramSimilarity a.grams b.grams

end Canon
end Statskboo
