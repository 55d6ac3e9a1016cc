import Mathlib.Data.List.Basic

/-!
# Patterns of groups

The fragment of `re` that the patterns with groups of the repository are written in: one
piece after another, each a repeated character class or a choice of texts, up to the end of
the text.
-/

namespace McpOps

/-- A piece of a pattern. -/
inductive RegexPiece where
  /-- `[class]{least,most}`, greedy; without a bound when `most` is missing -/
  | chars (member : Char → Bool) (least : ℕ) (most : Option ℕ)
  /-- `a|b|c` -/
  | oneOf (texts : List String)

/-- The texts that the pieces match from the start of `text` to its end (`$`: nothing or one
last newline is left), tried in the order of `re`. -/
def matchPieces : List RegexPiece → List Char → Option (List String)
  | [], text => if text = [] ∨ text = ['\n'] then some [] else none
  | .chars member least most :: rest, text =>
      let longest := (text.takeWhile member).length
      let longest := most.elim longest (min longest)
      ((List.range (longest + 1)).reverse.filter (least ≤ ·)).findSome? fun n =>
        (matchPieces rest (text.drop n)).map (String.ofList (text.take n) :: ·)
  | .oneOf texts :: rest, text =>
      texts.findSome? fun choice =>
        if choice.toList.isPrefixOf text then
          (matchPieces rest (text.drop choice.length)).map (choice :: ·)
        else none

end McpOps
