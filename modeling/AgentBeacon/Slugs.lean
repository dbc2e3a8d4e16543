import Mathlib.Data.List.Basic

/-!
# `Slugs` — names for sessions among their siblings

`generate_slug` of `slugs.rs`. What it draws at random is given: a pair of words for each attempt.
-/

namespace AgentBeacon
namespace Slugs

def adjectives : List String :=
  ["bold", "brave", "bright", "calm", "clear", "cool", "crisp", "deft", "fair", "fast", "firm",
    "fond", "free", "glad", "gold", "keen", "kind", "lean", "live", "mild", "neat", "nova", "pale",
    "pure", "rare", "rich", "safe", "slim", "soft", "sure", "tall", "tame", "tidy", "true", "vast",
    "warm", "wide", "wild", "wise", "zen"]

def nouns : List String :=
  ["arch", "bass", "beam", "bird", "bolt", "cape", "cave", "claw", "coil", "cone", "core", "crow",
    "dawn", "deer", "dove", "dusk", "edge", "fawn", "fern", "flag", "flux", "gate", "gale", "hawk",
    "haze", "iris", "jade", "kite", "lake", "lynx", "mesa", "mint", "moth", "muse", "node", "opal",
    "peak", "pine", "reed", "sage"]

/-- What `choose` gives for an adjective and a noun. -/
structure WordPair where
  adj : Fin adjectives.length
  noun : Fin nouns.length
  deriving DecidableEq

namespace WordPair

/-- `{adj}-{noun}`. -/
def slug (p : WordPair) : String := adjectives.get p.adj ++ "-" ++ nouns.get p.noun

/-- `{adj}-{noun}-{counter}`. -/
def counted (p : WordPair) (counter : Nat) : String := p.slug ++ "-" ++ toString counter

end WordPair

def maxAttempts : Nat := 100

/-- The attempts that are left, from the one under a number on. -/
def attemptsFrom (existing : List String) (draws : Nat → WordPair) (number : Nat) : Nat → Option String
  | 0 => none
  | left + 1 =>
      if existing.contains (draws number).slug then attemptsFrom existing draws (number + 1) left
      else some (draws number).slug

/-- `generate_slug`. -/
def generateSlug (existingSiblingSlugs : List String) (draws : Nat → WordPair) : String :=
  match attemptsFrom existingSiblingSlugs draws 0 maxAttempts with
  | some slug => slug
  -- nobody looks whether a sibling has this one
  | none => (draws maxAttempts).counted existingSiblingSlugs.length

end Slugs
end AgentBeacon
