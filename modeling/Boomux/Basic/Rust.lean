import Mathlib.Algebra.Ring.Nat
import Mathlib.Data.List.Basic

/-!
# The parts of the Rust standard library that the models use

Checked 64-bit arithmetic, `io::Error` as a kind with a message, the Unicode character
classes behind the name checks, and the textual forms of a UUID. A `u64` or `usize` is a
`Nat`; every place where the width matters goes through `checkedAdd`.
-/

set_option autoImplicit false

namespace Rust

/-! ## Integers -/

/-- `u64::MAX`, and `usize::MAX` on the supported platforms. -/
def u64Max : Nat := 2 ^ 64 - 1

/-- `u64::checked_add`. -/
def checkedAdd (a b : Nat) : Option Nat := if a + b ≤ u64Max then some (a + b) else none

/-- `u64::saturating_add`. -/
def saturatingAdd (a b : Nat) : Nat := min (a + b) u64Max

/-- `usize::checked_mul`. -/
def checkedMul (a b : Nat) : Option Nat := if a * b ≤ u64Max then some (a * b) else none

/-- `usize::saturating_mul`. -/
def saturatingMul (a b : Nat) : Nat := min (a * b) u64Max

theorem checkedAdd_eq_some {a b c : Nat} :
    checkedAdd a b = some c ↔ a + b ≤ u64Max ∧ c = a + b := by
  unfold checkedAdd
  split
  · simp_all [eq_comm]
  · simp only [reduceCtorEq, false_iff, not_and]
    intro h
    omega

/-! ## Errors -/

/-- The kinds of `io::ErrorKind` that the modelled code produces. -/
inductive ErrorKind
  | notFound | permissionDenied | connectionAborted | alreadyExists | wouldBlock
  | invalidInput | invalidData | timedOut | unsupported | resourceBusy | other
  deriving DecidableEq, Repr

/-- An `io::Error` with a custom message. -/
structure IoError where
  kind : ErrorKind
  message : String
  deriving DecidableEq, Repr

/-- `io::Error::other`. -/
def IoError.ofMessage (message : String) : IoError := ⟨.other, message⟩

/-! ## Results -/

section Results

variable {ε ε' α β : Type} {condition : Bool} {error : ε} {x : Except ε α} {b : β} {a : α}
    {u : Unit}

/-- Going on only when `condition` holds. -/
def require (condition : Bool) (error : ε) : Except ε Unit :=
  if condition then .ok () else .error error

@[simp] theorem require_eq_ok : require condition error = .ok u ↔ condition = true := by
  unfold require
  split <;> simp_all

/-- `?`: the rest runs on the value of a success. -/
theorem bind_eq_ok {f : α → Except ε β} :
    (x >>= f) = .ok b ↔ ∃ a, x = .ok a ∧ f a = .ok b := by
  cases x <;> simp [bind, Except.bind]

theorem require_bind_eq_ok {f : Unit → Except ε β} :
    (require condition error >>= f) = .ok b ↔ condition = true ∧ f () = .ok b := by
  unfold require
  split <;> simp_all [bind, Except.bind]

@[simp] theorem mapError_eq_ok {f : ε → ε'} : x.mapError f = .ok a ↔ x = .ok a := by
  cases x <;> simp [Except.mapError]

theorem map_eq_ok {f : α → β} : x.map f = .ok b ↔ ∃ a, x = .ok a ∧ f a = b := by
  cases x <;> simp [Except.map]

@[simp] theorem toOption_eq_some : x.toOption = some a ↔ x = .ok a := by
  cases x <;> simp [Except.toOption]

/-- A loop that stops at the first element with `bad` folds them all exactly when there is none. -/
theorem foldlM_require_eq_ok {bad : α → Bool} {f : β → α → β} {l : List α} {b b' : β} :
    l.foldlM (fun b a => do require (!bad a) error; .ok (f b a)) b = .ok b' ↔
      (∀ a ∈ l, bad a = false) ∧ b' = l.foldl f b := by
  induction l generalizing b with
  | nil =>
      simp only [List.foldlM_nil, pure, Except.pure, Except.ok.injEq, List.not_mem_nil,
        false_imp_iff,
        implies_true, true_and, List.foldl_nil]
      exact eq_comm
  | cons a l ih =>
      rw [List.foldlM_cons, bind_eq_ok, List.foldl_cons]
      simp only [require_bind_eq_ok, Except.ok.injEq, Bool.not_eq_true']
      constructor
      · rintro ⟨c, ⟨ha, rfl⟩, hl⟩
        obtain ⟨hbad, rfl⟩ := ih.mp hl
        exact ⟨List.forall_mem_cons.mpr ⟨ha, hbad⟩, rfl⟩
      · rintro ⟨hbad, rfl⟩
        obtain ⟨ha, hbad⟩ := List.forall_mem_cons.mp hbad
        exact ⟨f b a, ⟨ha, rfl⟩, ih.mpr ⟨hbad, rfl⟩⟩

/-- A loop that checks each element and puts its key into a set that must not have it yet. -/
theorem foldlM_collect {κ : Type} {key : α → κ} {good : α → Prop} {seen seen' : List κ}
    {step : List κ → α → Except ε (List κ)} {l : List α}
    (hstep : ∀ seen a seen', step seen a = .ok seen' ↔
      good a ∧ key a ∉ seen ∧ seen' = key a :: seen) :
    l.foldlM step seen = .ok seen' ↔
      (∀ a ∈ l, good a) ∧ (l.map key).Nodup ∧ (∀ a ∈ l, key a ∉ seen) ∧
        seen' = (l.map key).reverse ++ seen := by
  induction l generalizing seen with
  | nil => simp [pure, Except.pure, eq_comm]
  | cons a l ih =>
      rw [List.foldlM_cons, bind_eq_ok]
      simp only [hstep, ih]
      constructor
      · rintro ⟨-, ⟨hgood, hnew, rfl⟩, hall, hdist, hfresh, rfl⟩
        refine ⟨List.forall_mem_cons.mpr ⟨hgood, hall⟩, List.nodup_cons.mpr ⟨?_, hdist⟩,
          List.forall_mem_cons.mpr ⟨hnew, fun b hb => ?_⟩, by simp⟩
        · intro hmem
          obtain ⟨b, hb, he⟩ := List.mem_map.mp hmem
          exact hfresh b hb (he ▸ List.mem_cons_self)
        · exact fun hb' => hfresh b hb (List.mem_cons_of_mem _ hb')
      · rintro ⟨hgood, hdist, hfresh, rfl⟩
        obtain ⟨hhead, htail⟩ := List.nodup_cons.mp hdist
        refine ⟨_, ⟨hgood a List.mem_cons_self, hfresh a List.mem_cons_self, rfl⟩,
          fun b hb => hgood b (List.mem_cons_of_mem a hb), htail, fun b hb => ?_, by simp⟩
        intro hmem
        rcases List.mem_cons.mp hmem with he | hmem
        · exact hhead (he ▸ List.mem_map_of_mem hb)
        · exact hfresh b (List.mem_cons_of_mem a hb) hmem

end Results

/-! ## Characters -/

/-- `char::is_control`: the Unicode category Cc. -/
def isControl (c : Char) : Bool :=
  c.toNat < 0x20 || (0x7f ≤ c.toNat && c.toNat ≤ 0x9f)

/-- `char::is_whitespace`: the Unicode property White_Space. -/
def isWhitespace (c : Char) : Bool :=
  let n := c.toNat
  (9 ≤ n && n ≤ 13) || n == 0x20 || n == 0x85 || n == 0xa0 || n == 0x1680 ||
    (0x2000 ≤ n && n ≤ 0x200a) || n == 0x2028 || n == 0x2029 || n == 0x202f ||
    n == 0x205f || n == 0x3000

/-! ## Paths -/

/-- `Path::is_absolute`. -/
def isAbsolute (path : String) : Bool := path.toList.head? == some '/'

/-- `Path::components`: repeated separators and `.` count for nothing, except a leading `.`. -/
def pathComponents (path : String) : Bool × List (List Char) :=
  let pieces := path.toList.splitOn '/'
  (isAbsolute path, (pieces.take 1).filter (· ≠ []) ++
    (pieces.drop 1).filter fun piece => piece ≠ [] ∧ piece ≠ ['.'])

/-- `Path::eq`. -/
def samePath (a b : String) : Bool := pathComponents a = pathComponents b

theorem samePath_iff {a b : String} : samePath a b = true ↔ pathComponents a = pathComponents b :=
  decide_eq_true_iff

example : samePath "/a//b/./c/" "/a/b/c" = true := by decide +kernel

/-- `Path::file_name`: the last component, unless it is `.` or `..`. -/
def fileName (path : String) : Option String :=
  match (pathComponents path).2.getLast? with
  | some piece => if piece = ['.'] ∨ piece = ['.', '.'] then none else some (String.ofList piece)
  | none => none

/-! ## UUIDs -/

/-- A hexadecimal digit, in either case. -/
def isHexDigit (c : Char) : Bool :=
  c.isDigit || ('a' ≤ c && c ≤ 'f') || ('A' ≤ c && c ≤ 'F')

/-- A hexadecimal digit as `Uuid::to_string` writes it. -/
def isLowerHexDigit (c : Char) : Bool := c.isDigit || ('a' ≤ c && c ≤ 'f')

/-- The 8-4-4-4-12 form, with digits that satisfy `digit`. -/
def isHyphenated (digit : Char → Bool) (cs : List Char) : Bool :=
  cs.length == 36 && (cs.zipIdx.all fun p =>
    if p.2 == 8 || p.2 == 13 || p.2 == 18 || p.2 == 23 then p.1 == '-' else digit p.1)

/-- `Uuid::parse_str(text).is_ok()`: the simple, hyphenated, braced and URN forms. -/
def uuidParses (text : String) : Bool :=
  let cs := text.toList
  (cs.length == 32 && cs.all isHexDigit) || isHyphenated isHexDigit cs ||
    (cs.length == 38 && cs.head? == some '\x7b' && cs.getLast? == some '\x7d' &&
      isHyphenated isHexDigit (cs.tail.take 36)) ||
    ("urn:uuid:".toList.isPrefixOf cs && isHyphenated isHexDigit (cs.drop 9))

/-- `Uuid::parse_str(text)` succeeds and prints `text` again. -/
def isCanonicalUuid (text : String) : Bool := isHyphenated isLowerHexDigit text.toList

theorem isHyphenated_mono {digit digit' : Char → Bool} {cs : List Char}
    (himp : ∀ c, digit c = true → digit' c = true) (h : isHyphenated digit cs = true) :
    isHyphenated digit' cs = true := by
  simp only [isHyphenated, Bool.and_eq_true, List.all_eq_true] at h ⊢
  refine ⟨h.1, fun p hp => ?_⟩
  have hdigit := h.2 p hp
  split at hdigit
  next hsep => rwa [if_pos hsep]
  next hsep =>
    rw [if_neg hsep]
    exact himp _ hdigit

theorem uuidParses_of_isCanonicalUuid {text : String} (h : isCanonicalUuid text = true) :
    uuidParses text = true := by
  have hhex : isHyphenated isHexDigit text.toList = true := by
    refine isHyphenated_mono (fun c hc => ?_) h
    rw [isHexDigit, Bool.or_eq_true]
    exact .inl hc
  simp [uuidParses, hhex]

example : isCanonicalUuid "00000000-0000-0000-0000-00000000000a" = true := by decide

end Rust
