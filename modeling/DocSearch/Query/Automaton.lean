import DocSearch.Query.Wildcard

/-!
# The automaton of a pattern

The index looks for a pattern among the encoded terms of a field by an automaton that reads them
byte by byte.  A `Place` is where reading may stand in a pattern; a state of the automaton is the
list of the places at which it may stand at once, in the order in which they were reached
(`Automaton.step`).

The index builds the automaton before it looks, and refuses a pattern for which there are more than
`stateLimit` states.  `isSearchable` says whether there are few enough: it follows the states from
the first one on, each once (`Automaton.hasAtMost`), and stops at the limit.  The states that follow
one are found with a few bytes only, one from each range that is told apart (`Automaton.samples`).
-/

namespace DocSearch.Wildcard

/-- Bytes from a `first` one to a `last` one. -/
structure ByteRange where
  first : Nat
  last : Nat
deriving DecidableEq, Repr

namespace ByteRange

/-- Whether `byte` is in the range `r`. -/
def has (r : ByteRange) (byte : Nat) : Bool := r.first ≤ byte && byte ≤ r.last

/-- The bytes that continue the encoding of a character. -/
def continuing : ByteRange := ⟨0x80, 0xBF⟩

end ByteRange

/-- The encodings of all characters but the line feed, by length and first byte. -/
def encodingsOfAny : List (List ByteRange) :=
  [[⟨0x00, 0x09⟩], [⟨0x0B, 0x7F⟩], [⟨0xC2, 0xDF⟩, .continuing],
    [⟨0xE0, 0xE0⟩, ⟨0xA0, 0xBF⟩, .continuing], [⟨0xE1, 0xEC⟩, .continuing, .continuing],
    [⟨0xED, 0xED⟩, ⟨0x80, 0x9F⟩, .continuing], [⟨0xEE, 0xEF⟩, .continuing, .continuing],
    [⟨0xF0, 0xF0⟩, ⟨0x90, 0xBF⟩, .continuing, .continuing],
    [⟨0xF1, 0xF3⟩, .continuing, .continuing, .continuing],
    [⟨0xF4, 0xF4⟩, ⟨0x80, 0x8F⟩, .continuing, .continuing]]

/-- The encodings of the characters that a part of a pattern stands for. -/
def Piece.encodings : Piece → List (List ByteRange)
  | .literal c => [(String.singleton c).toUTF8.toList.map fun b => ⟨b.toNat, b.toNat⟩]
  | .one | .run => encodingsOfAny

/-- Where reading may stand in a pattern. -/
inductive Place where
  /-- Before the part of the number `piece`, or behind the last one; nothing of it has been read. -/
  | before (piece : Nat)
  /-- Before a `byte`, other than the first, of an `encoding` of a part. -/
  | inside (piece encoding byte : Nat)
deriving DecidableEq, Repr

/-- A number for each place, by its part first. -/
def Place.code : Place → Nat
  | .before piece => 64 * piece
  | .inside piece encoding byte => 64 * piece + 4 * encoding + byte

/-- Places without those that were there before; `begun` has a bit for each part that something is
before.  No two places lead inside one encoding, so that only those before a part can occur
twice. -/
def distinct (begun : Nat) : List Place → List Place
  | [] => []
  | .before n :: ps =>
    if begun.testBit n then distinct begun ps else .before n :: distinct (begun ||| (1 <<< n)) ps
  | p :: ps => p :: distinct begun ps

/-- The `state` with a number that equal states share and others rarely do, by which they are told
apart quickly. -/
def numbered (state : List Place) : Nat × List Place :=
  (state.foldl (fun m p => (257 * m + p.code) % 1000000007) 0, state)

/-- The places at the beginning of some parts, the first of which is number `n`; a run may be left
at once. -/
def placesAt (n : Nat) : List Piece → List Place
  | [] => [.before n]
  | p :: ps => .before n :: if p = .run then placesAt (n + 1) ps else []

/-- A pattern prepared for reading. -/
structure Automaton where
  /-- for each part its encodings -/
  encodings : Array (List (List ByteRange))
  /-- for each part, and behind the last one, the places at its beginning -/
  starts : Array (List Place)
  /-- for each part, the part that is read after it -/
  next : Array Nat

namespace Automaton

/-- The automaton of the pattern `p`; a run is read after itself. -/
def ofPattern (p : List Piece) : Automaton where
  encodings := (p.map Piece.encodings).toArray
  starts := ((List.range (p.length + 1)).map fun n => placesAt n (p.drop n)).toArray
  next := (p.zipIdx.map fun q => if q.1 = .run then q.2 else q.2 + 1).toArray

/-- The state before the first byte. -/
def start (a : Automaton) : List Place := a.starts[0]?.getD []

/-- The encodings of the part `piece`; there are none behind the last one. -/
def encodingsOf (a : Automaton) (piece : Nat) : List (List ByteRange) := a.encodings[piece]?.getD []

/-- The range that a `byte` of an `encoding` must be in. -/
def range? (a : Automaton) (piece encoding byte : Nat) : Option ByteRange := do
  (← (a.encodingsOf piece)[encoding]?)[byte]?

/-- The places behind a `byte` of an `encoding`: before the next byte, or at the next part. -/
def behind (a : Automaton) (piece encoding byte : Nat) : List Place :=
  if (a.range? piece encoding (byte + 1)).isSome then [.inside piece encoding (byte + 1)]
  else ((a.next[piece]?).bind (a.starts[·]?)).getD []

/-- The ranges that the next byte may be in. -/
def ranges (a : Automaton) : Place → List ByteRange
  | .before piece => (a.encodingsOf piece).filterMap (·[0]?)
  | .inside piece encoding byte => (a.range? piece encoding byte).toList

/-- The places reached from a place with `byte`. -/
def reached (a : Automaton) (byte : Nat) : Place → List Place
  | .before piece =>
    (a.encodingsOf piece).zipIdx.flatMap fun e =>
      if e.1[0]?.any (·.has byte) then a.behind piece e.2 0 else []
  | .inside piece encoding k =>
    if (a.range? piece encoding k).any (·.has byte) then a.behind piece encoding k else []

/-- The state after `byte`; without any place reading has failed. -/
def step (a : Automaton) (state : List Place) (byte : Nat) : List Place :=
  distinct 0 (state.flatMap (a.reached byte))

/-- Bytes such that any byte leads from `state` where one of them leads, or nowhere. -/
def samples (a : Automaton) (state : List Place) : List Nat :=
  ((state.flatMap a.ranges).eraseDups.flatMap fun r => [r.first, r.last + 1]).eraseDups

/-- The states that follow `state` directly. -/
def successors (a : Automaton) (state : List Place) : List (List Place) :=
  ((a.samples state).map (a.step state)).filter (!·.isEmpty)

/-- Adds the states that are new to those `known` and to those not followed yet. -/
def note (known : List (Nat × List Place)) (pending : List (List Place)) :
    List (List Place) → List (Nat × List Place) × List (List Place)
  | [] => (known, pending)
  | s :: ss =>
    if known.contains (numbered s) then note known pending ss
    else note (numbered s :: known) (s :: pending) ss

/-- Whether there are at most `most` states, given those `known` and those of them not followed
yet.  Every round follows one state, so that `fuel` rounds follow `fuel` states. -/
def hasAtMost (a : Automaton) (most : Nat) :
    (fuel : Nat) → (known : List (Nat × List Place)) → (pending : List (List Place)) → Bool
  | _, known, [] => known.length ≤ most
  | 0, _, _ :: _ => false
  | fuel + 1, known, s :: pending =>
    let r := note known pending (a.successors s)
    r.1.length ≤ most && hasAtMost a most fuel r.1 r.2

end Automaton

/-- The greatest number of states of an automaton. -/
def stateLimit : Nat := 1000

/-- Whether the index can look for the pattern `p`. -/
def isSearchable (p : List Piece) : Bool :=
  let a := Automaton.ofPattern p
  a.hasAtMost stateLimit stateLimit [numbered a.start] [a.start]

example : isSearchable (pattern "*report?.txt") = true ∧
  isSearchable (pattern "*?????") = true := by
  decide +kernel

end DocSearch.Wildcard
