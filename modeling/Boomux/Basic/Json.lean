import Mathlib.Algebra.BigOperators.Group.List.Basic
import Mathlib.Algebra.Ring.Nat

/-!
# JSON values and the length of their text

`compactLen` is the number of bytes that `serde_json::to_vec` writes for a value, and
`prettyLen depth` the number that `serde_json::to_vec_pretty` writes for one nested `depth`
levels deep: two spaces a level, every element and every field on a line of its own.
-/

set_option autoImplicit false

/-- A JSON value; the numbers are unsigned integers. -/
inductive Json
  | null
  | bool (b : Bool)
  | number (n : Nat)
  | string (s : String)
  /-- A string of `count` spaces. -/
  | spaces (count : Nat)
  | array (elements : List Json)
  | object (fields : List (String × Json))
  deriving BEq, Repr

namespace Json

/-! ## Records -/

/-- An optional field that is written as `null` when it is absent. -/
def ofOption (value : Option String) : Json := value.elim null string

/-- `skip_serializing_if = "Option::is_none"`. -/
def optionalField (name : String) (value : Option String) : List (String × Json) :=
  (value.map fun s => (name, string s)).toList

/-! ## Lengths -/

/-- The bytes of one character inside a string: the short escapes, `\u00xx`, or UTF-8. -/
def charLen (c : Char) : Nat :=
  if c = '"' || c = '\\' then 2
  else if 0x20 ≤ c.toNat then c.utf8Size
  else if c.toNat ∈ [8, 9, 10, 12, 13] then 2
  else 6

def stringLen (s : String) : Nat := (s.toList.map charLen).sum + 2

def numberLen (n : Nat) : Nat := (Nat.toDigits 10 n).length

/-- Between brackets, with a separator between every two of `count` parts. -/
def joinedLen (count parts : Nat) : Nat := parts + (count - 1) + 2

mutual
/-- `serde_json::to_vec(value).len()`. -/
def compactLen : Json → Nat
  | null => 4
  | bool b => if b then 4 else 5
  | number n => numberLen n
  | string s => stringLen s
  | spaces count => count + 2
  | array elements => joinedLen elements.length (compactLens elements)
  | object fields => joinedLen fields.length (compactFieldLens fields)

def compactLens : List Json → Nat
  | [] => 0
  | value :: rest => compactLen value + compactLens rest

def compactFieldLens : List (String × Json) → Nat
  | [] => 0
  | (name, value) :: rest => stringLen name + 1 + compactLen value + compactFieldLens rest
end

/-- As `joinedLen`, with a line for each part and one for the closing bracket. -/
def linesLen (depth count parts : Nat) : Nat :=
  if count = 0 then 2 else joinedLen count parts + count * (2 * depth + 3) + (2 * depth + 1)

mutual
/-- `serde_json::to_vec_pretty(value).len()`, where the value stands `depth` levels deep. -/
def prettyLen (depth : Nat) : Json → Nat
  | null => 4
  | bool b => if b then 4 else 5
  | number n => numberLen n
  | string s => stringLen s
  | spaces count => count + 2
  | array elements => linesLen depth elements.length (prettyLens (depth + 1) elements)
  | object fields => linesLen depth fields.length (prettyFieldLens (depth + 1) fields)

def prettyLens (depth : Nat) : List Json → Nat
  | [] => 0
  | value :: rest => prettyLen depth value + prettyLens depth rest

def prettyFieldLens (depth : Nat) : List (String × Json) → Nat
  | [] => 0
  | (name, value) :: rest =>
      stringLen name + 2 + prettyLen depth value + prettyFieldLens depth rest
end

/-! ## Fewer elements -/

section Fewer

variable {depth : Nat} {l l' : List Json}

theorem prettyLens_le_of_sublist (h : l'.Sublist l) : prettyLens depth l' ≤ prettyLens depth l := by
  induction h with
  | slnil => exact Nat.le_refl _
  | cons a _ ih =>
      rw [prettyLens]
      omega
  | cons_cons a _ ih =>
      rw [prettyLens, prettyLens]
      omega

/-- An array with fewer elements is not longer. -/
theorem prettyLen_array_le (h : l'.Sublist l) : prettyLen depth (array l') ≤ prettyLen depth
    (array l) := by
  have hparts : prettyLens (depth + 1) l' ≤ prettyLens (depth + 1) l := prettyLens_le_of_sublist h
  have hcount := h.length_le
  have hlines := Nat.mul_le_mul_right (2 * depth + 3) hcount
  rw [prettyLen, prettyLen, linesLen, linesLen, joinedLen, joinedLen]
  split
  · split <;> omega
  · rw [if_neg (by omega)]
    omega

/-- An array with shorter elements is not longer. -/
theorem prettyLen_array_le_of_forall₂
    (h : List.Forall₂ (fun v' v => prettyLen (depth + 1) v' ≤ prettyLen (depth + 1) v) l' l) :
    prettyLen depth (array l') ≤ prettyLen depth (array l) := by
  have hparts : prettyLens (depth + 1) l' ≤ prettyLens (depth + 1) l := by
    induction h with
    | nil => exact Nat.le_refl _
    | cons hv _ ih =>
        rw [prettyLens, prettyLens]
        omega
  rw [prettyLen, prettyLen, linesLen, linesLen, joinedLen, joinedLen, h.length_eq]
  split <;> omega

theorem prettyFieldLens_le {fields fields' : List (String × Json)}
    (h : List.Forall₂ (fun f' f => f'.1 = f.1
      ∧ prettyLen depth f'.2 ≤ prettyLen depth f.2) fields' fields) :
    prettyFieldLens depth fields' ≤ prettyFieldLens depth fields := by
  induction h with
  | nil => exact Nat.le_refl _
  | cons hf _ ih =>
      rw [prettyFieldLens, prettyFieldLens, hf.1]
      omega

/-- A record with shorter values in the same fields is not longer. -/
theorem prettyLen_object_le {fields fields' : List (String × Json)}
    (h : List.Forall₂ (fun f' f => f'.1 = f.1
      ∧ prettyLen (depth + 1) f'.2 ≤ prettyLen (depth + 1) f.2)
      fields' fields) : prettyLen depth (object fields') ≤ prettyLen depth (object fields) := by
  have hparts := prettyFieldLens_le h
  rw [prettyLen, prettyLen, linesLen, linesLen, joinedLen, joinedLen, h.length_eq]
  split <;> omega

end Fewer

-- The text is "\x7b\n  \"a\": 12,\n  \"b\": [\n    \"x\\n\"\n  ]\n\x7d".
example : prettyLen 0 (object [("a", number 12), ("b", array [string "x\n"])]) = 37 := by
  decide +kernel

end Json
