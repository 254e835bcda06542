import Mathlib.Data.List.DropRight

namespace Sentinel.Text

/-- `s.rstrip(c)` for one character. -/
def rstrip (s : String) (c : Char) : String := String.ofList (s.toList.rdropWhile (· = c))

/-- What the gateway takes from Python's string library. `upper` follows the Unicode case tables,
of which only the ASCII part is fixed here; `fnmatch` is any matching of names against patterns. -/
structure StringLibrary where
  upper : String → String
  upper_ascii : ∀ s, (∀ c ∈ s.toList, c.toNat < 128) → upper s = s.toUpper
  fnmatch : String → String → Bool

inductive Token
  | star
  | any
  | oneOf (negated : Bool) (ranges : List (Char × Char))
  | literal (c : Char)
  deriving DecidableEq

def ranges : List Char → List (Char × Char)
  | lo :: '-' :: hi :: cs => (lo, hi) :: ranges cs
  | c :: cs => (c, c) :: ranges cs
  | [] => []

/-- The class that starts after a `[`, and what follows its `]`. A `]` right after the `[` or
`[!` belongs to the class. -/
def bracket (cs : List Char) : Option (Token × List Char) :=
  let negated := cs.head? = some '!'
  let body := if negated then cs.tail else cs
  let first := if body.head? = some ']' then 1 else 0
  let members := body.take first ++ (body.drop first).takeWhile (· ≠ ']')
  match (body.drop first).dropWhile (· ≠ ']') with
  | _ :: rest => some (.oneOf negated (ranges members), rest)
  | [] => none

/-- A `[` without its `]` stands for itself. -/
def tokens : ℕ → List Char → List Token
  | fuel + 1, '*' :: cs => .star :: tokens fuel cs
  | fuel + 1, '?' :: cs => .any :: tokens fuel cs
  | fuel + 1, '[' :: cs =>
    match bracket cs with
    | some (t, rest) => t :: tokens fuel rest
    | none => .literal '[' :: tokens fuel cs
  | fuel + 1, c :: cs => .literal c :: tokens fuel cs
  | _, _ => []

def Token.accepts : Token → Char → Bool
  | .star, _ | .any, _ => true
  | .oneOf negated rs, c => rs.any (fun r => r.1 ≤ c ∧ c ≤ r.2) ≠ negated
  | .literal c', c => c = c'

def matchTokens : List Token → List Char → Bool
  | [], cs => cs.isEmpty
  | .star :: ts, cs => cs.tails.any (matchTokens ts)
  | _ :: _, [] => false
  | t :: ts, c :: cs => t.accepts c && matchTokens ts cs

/-- `fnmatch.fnmatch` on a case-sensitive file system: `*` matches everything, `?` one character,
`[seq]` and `[!seq]` one character in or outside of a set. -/
def fnmatch (name pattern : String) : Bool :=
  matchTokens (tokens pattern.length pattern.toList) name.toList

def posix : StringLibrary := ⟨String.toUpper, fun _ _ => rfl, fnmatch⟩

end Sentinel.Text
