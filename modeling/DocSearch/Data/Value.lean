/-!
# Trees of data

`Value` is what a JSON or TOML text says once its spelling is forgotten: scalars, lists, and tables
whose fields keep their order (and, for JSON, their repetitions).  Of the spelling one thing is
kept, whether a table was written in one piece.

The readers that begin with `as` take a value for what it is and nothing else (`Value.asText?`,
`Value.asWord?` and so on); whether a number counts as a text is decided where settings are read,
not here.  `Value.ofOption` and `Value.asOption?` write and read what may be missing, as `null`.
`Value.depth` is the measure by which a value can be written or compared.
-/

namespace DocSearch

/-- A number that is not written as an integer. -/
inductive Decimal where
  /-- `± digits · 10 ^ exponent` -/
  | finite (negative : Bool) (digits : Nat) (exponent : Int)
  | infinite (negative : Bool)
  | notANumber
deriving DecidableEq, Repr

/-- A tree of data. -/
inductive Value where
  | null
  | bool (b : Bool)
  | int (n : Int)
  | decimal (d : Decimal)
  | text (s : String)
  /-- A date or time, by its canonical text `s`. -/
  | date (s : String)
  | list (items : List Value)
  | table (fields : List (String × Value))
  /-- A table that was put together from several places of a text. -/
  | openTable (fields : List (String × Value))
  /-- What holds half of a surrogate pair where a text is needed; it is well-formed, but nothing can
  be read from it. -/
  | undecodable

namespace Value

instance : Inhabited Value := ⟨null⟩

/-- The text `s` of `text s`, and no other value's. -/
def asText? : Value → Option String
  | text s => some s
  | _ => none

/-- The truth value `b` of `bool b`. -/
def asBool? : Value → Option Bool
  | bool b => some b
  | _ => none

/-- The integer `n` of `int n`. -/
def asInt? : Value → Option Int
  | int n => some n
  | _ => none

/-- The integer of `int n` as an unsigned 64-bit word, if it is one. -/
def asWord? : Value → Option UInt64
  | int n => if 0 ≤ n ∧ n < 18446744073709551616 then some (UInt64.ofNat n.toNat) else none
  | _ => none

/-- The items of a list. -/
def asList? : Value → Option (List Value)
  | list items => some items
  | _ => none

/-- Whether a value is a list or table without anything in it. -/
def isVoid : Value → Bool
  | list [] | table [] | openTable [] => true
  | _ => false

/-- The items of the list `v`, all of which must be texts. -/
def asTexts? (v : Value) : Option (List String) := v.asList?.bind (·.mapM asText?)

/-- The fields of a table, all of which must be texts. -/
def asTextTable? : Value → Option (List (String × String))
  | table fields => fields.mapM fun f => f.2.asText?.map (f.1, ·)
  | _ => none

/-- What `read` makes of a value, `null` standing for a missing one. -/
def asOption? {α : Type} (read : Value → Option α) : Value → Option (Option α)
  | null => some none
  | v => (read v).map some

/-- A value that `write` makes of something, or `null` if it is missing. -/
def ofOption {α : Type} (write : α → Value) : Option α → Value
  | some a => write a
  | none => null

mutual

/-- How many levels of lists and tables a value has. -/
def depth : Value → Nat
  | list items => depthOfItems items + 1
  | table fields => depthOfFields fields + 1
  | openTable fields => depthOfFields fields + 1
  | _ => 0

/-- The greatest depth among some items, `0` for none. -/
def depthOfItems : List Value → Nat
  | [] => 0
  | v :: vs => max (depth v) (depthOfItems vs)

/-- The greatest depth among some fields, `0` for none. -/
def depthOfFields : List (String × Value) → Nat
  | [] => 0
  | f :: fs => max (depth f.2) (depthOfFields fs)

end

end Value

end DocSearch
