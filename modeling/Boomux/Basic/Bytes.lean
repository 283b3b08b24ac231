import Boomux.Basic.Rust

/-!
# Byte strings

The bytes of a text, the text that `String::from_utf8_lossy` reads in bytes, the number that
`usize::from_str` reads in a text, and texts written one after another behind their lengths.
-/

set_option autoImplicit false

namespace Rust

/-! ## UTF-8 -/

/-- `str::as_bytes`. -/
def asBytes (text : String) : List UInt8 := text.toList.flatMap String.utf8EncodeChar

/-- A continuation byte in a part of their range. -/
def continues (low high : UInt8) (byte : Option UInt8) : Bool :=
  byte.any fun byte => low ≤ byte && byte ≤ high

/-- How many bytes of an invalid sequence stand for one replacement character: those that could
still begin a character. -/
def invalidLen : List UInt8 → Nat
  | [] => 0
  | first :: rest =>
      let second (low high : UInt8) := continues low high rest[0]?
      let third := continues 0x80 0xBF rest[1]?
      if 0xE0 ≤ first && first ≤ 0xEF then
        if second (if first = 0xE0 then 0xA0 else 0x80) (if first = 0xED then 0x9F else 0xBF) then 2
        else 1
      else if 0xF0 ≤ first && first ≤ 0xF4 then
        if second (if first = 0xF0 then 0x90 else 0x80) (if first = 0xF4 then 0x8F else 0xBF) then
          if third then 3 else 2
        else 1
      else 1

/-- The characters of the first `fuel` sequences. -/
def lossyChars : Nat → List UInt8 → List Char
  | 0, _ | _, [] => []
  | fuel + 1, bytes =>
      match bytes.toByteArray.utf8DecodeChar? 0 with
      | some c => c :: lossyChars fuel (bytes.drop c.utf8Size)
      | none => '\uFFFD' :: lossyChars fuel (bytes.drop (invalidLen bytes))

/-- `String::from_utf8_lossy`. -/
def fromUtf8Lossy (bytes : List UInt8) : String := String.ofList (lossyChars bytes.length bytes)

/-- A byte below 128 stands only in the encoding of the character of that number. -/
theorem toNat_of_mem_utf8EncodeChar {byte : UInt8} {c : Char} (hbyte : byte.toNat < 128)
    (h : byte ∈ String.utf8EncodeChar c) : c.toNat = byte.toNat := by
  have hlarge {n base : Nat} (hlow : 128 ≤ base) (hn : n + base < 256) :
      byte ≠ UInt8.ofNat (n + base) := by
    rintro rfl
    rw [UInt8.toNat_ofNat'] at hbyte
    omega
  unfold String.utf8EncodeChar at h
  dsimp only at h
  split at h
  next hsmall =>
      rw [List.mem_singleton.mp h, UInt8.toNat_ofNat']
      exact (Nat.mod_eq_of_lt (Nat.lt_of_le_of_lt hsmall (by decide))).symm
  next =>
      exfalso
      split_ifs at h <;> simp only [List.mem_cons, List.not_mem_nil, or_false] at h
      · rcases h with h | h <;> exact absurd h (hlarge (by omega) (by omega))
      · rcases h with h | h | h <;> exact absurd h (hlarge (by omega) (by omega))
      · rcases h with h | h | h | h <;> exact absurd h (hlarge (by omega) (by omega))

theorem lossyChars_encode : ∀ (chars : List Char) (fuel : Nat),
    (chars.flatMap String.utf8EncodeChar).length ≤ fuel →
      lossyChars fuel (chars.flatMap String.utf8EncodeChar) = chars
  | [], fuel, _ => by cases fuel <;> rfl
  | c :: chars, fuel, h => by
      have hsize : (String.utf8EncodeChar c).length = c.utf8Size := String.length_utf8EncodeChar c
      have hpos := c.utf8Size_pos
      rw [List.flatMap_cons] at h ⊢
      rw [List.length_append, hsize] at h
      obtain ⟨fuel, rfl⟩ := Nat.exists_eq_add_of_lt (show 0 < fuel by omega)
      have hcons : String.utf8EncodeChar c ++ chars.flatMap String.utf8EncodeChar ≠ [] := by
        intro hnil
        have := congrArg List.length hnil
        rw [List.length_append, hsize, List.length_nil] at this
        omega
      obtain ⟨first, rest, hfirst⟩ := List.exists_cons_of_ne_nil hcons
      have hdecode : (String.utf8EncodeChar c ++
          chars.flatMap String.utf8EncodeChar).toByteArray.utf8DecodeChar? 0 = some c := by
        rw [List.toByteArray_append]
        exact ByteArray.utf8DecodeChar?_utf8EncodeChar_append
      have hdrop : (String.utf8EncodeChar c ++ chars.flatMap String.utf8EncodeChar).drop
          c.utf8Size = chars.flatMap String.utf8EncodeChar := by
        rw [← hsize, List.drop_left]
      rw [Nat.zero_add]
      have ih := lossyChars_encode chars fuel (by omega)
      rw [hfirst] at hdecode hdrop ⊢
      rw [lossyChars, hdecode]
      · dsimp only
        rw [hdrop, ih]
      · nofun

/-- A text is read back from its bytes. -/
theorem fromUtf8Lossy_asBytes (text : String) : fromUtf8Lossy (asBytes text) = text := by
  unfold fromUtf8Lossy asBytes
  rw [lossyChars_encode _ _ (Nat.le_refl _), String.ofList_toList]

/-! ## Numbers -/

/-- `usize::from_str`, of what stands after an optional sign. -/
def parseDigits (digits : List Char) : Option Nat :=
  if digits.isEmpty || !digits.all Char.isDigit then none
  else
    let value := Nat.ofDigitChars 10 digits 0
    if value ≤ u64Max then some value else none

/-- `usize::from_str`. -/
def parseUsize (text : List Char) : Option Nat :=
  match text with
  | '+' :: digits => parseDigits digits
  | digits => parseDigits digits

/-- A number is read back from its decimal digits. -/
theorem parseUsize_toDigits {n : Nat} (h : n ≤ u64Max) :
    parseUsize (Nat.toDigits 10 n) = some n := by
  have hdigits : ∀ c ∈ Nat.toDigits 10 n, c.isDigit = true := fun c hc =>
    Nat.isDigit_of_mem_toDigits (by decide) (by decide) hc
  have hparse : parseDigits (Nat.toDigits 10 n) = some n := by
    unfold parseDigits
    rw [Nat.ofDigitChars_toDigits (by decide) (by decide)]
    simp [Nat.toDigits_ne_nil, List.all_eq_true.mpr hdigits, h]
  unfold parseUsize
  split
  next digits heq =>
    have : ('+' : Char).isDigit = true := hdigits '+' (heq ▸ List.mem_cons_self)
    exact absurd this (by decide)
  next => exact hparse

/-! ## Big-endian numbers -/

/-- The last bytes of a number, most significant first: `to_be_bytes` of an integer of this width.
-/
def beBytes : Nat → Nat → List UInt8
  | 0, _ => []
  | width + 1, n => UInt8.ofNat (n / 256 ^ width) :: beBytes width n

/-- `from_be_bytes`. -/
def beNat : List UInt8 → Nat
  | [] => 0
  | byte :: bytes => byte.toNat * 256 ^ bytes.length + beNat bytes

@[simp] theorem length_beBytes (width n : Nat) : (beBytes width n).length = width := by
  induction width with
  | zero => rfl
  | succ width ih => rw [beBytes, List.length_cons, ih]

theorem beNat_lt (bytes : List UInt8) : beNat bytes < 256 ^ bytes.length := by
  induction bytes with
  | nil => exact Nat.one_pos
  | cons byte bytes ih =>
      have hbyte : byte.toNat + 1 ≤ 256 := byte.toNat_lt
      have hmul := Nat.mul_le_mul_right (256 ^ bytes.length) hbyte
      rw [Nat.add_mul, Nat.one_mul] at hmul
      rw [beNat, List.length_cons, Nat.pow_succ]
      omega

theorem beNat_beBytes (width n : Nat) : beNat (beBytes width n) = n % 256 ^ width := by
  induction width with
  | zero => rw [beBytes, beNat, Nat.pow_zero, Nat.mod_one]
  | succ width ih =>
      have hbyte : (UInt8.ofNat (n / 256 ^ width)).toNat = n / 256 ^ width % 256 := by simp
      rw [beBytes, beNat, length_beBytes, ih, hbyte, Nat.mod_pow_succ, Nat.mul_comm, Nat.add_comm]

theorem beBytes_mod (width n c : Nat) : beBytes width (n + 256 ^ width * c) = beBytes width n := by
  induction width generalizing c with
  | zero => rfl
  | succ width ih =>
      have hsplit : n + 256 ^ (width + 1) * c = n + 256 ^ width * (256 * c) := by
        rw [Nat.pow_succ, Nat.mul_assoc]
      have hbyte : UInt8.ofNat (n / 256 ^ width + 256 * c) = UInt8.ofNat (n / 256 ^ width) := by
        refine UInt8.toNat_inj.mp ?_
        simp
      rw [beBytes, beBytes, hsplit, ih, Nat.add_mul_div_left _ _ (Nat.pow_pos (by decide)), hbyte]

theorem beBytes_beNat (bytes : List UInt8) : beBytes bytes.length (beNat bytes) = bytes := by
  induction bytes with
  | nil => rfl
  | cons byte bytes ih =>
      have hdiv : (byte.toNat * 256 ^ bytes.length + beNat bytes) / 256 ^ bytes.length =
          byte.toNat := by
        rw [Nat.mul_comm, Nat.mul_add_div (Nat.pow_pos (by decide)),
          Nat.div_eq_of_lt (beNat_lt bytes), Nat.add_zero]
      rw [List.length_cons, beNat, beBytes, hdiv, Nat.add_comm, Nat.mul_comm, beBytes_mod, ih,
        UInt8.ofNat_toNat]

/-! ## Length prefixes -/

/-- `u64::to_be_bytes`. -/
def toBeBytes (n : Nat) : List UInt8 :=
  [7, 6, 5, 4, 3, 2, 1, 0].map fun i => UInt8.ofNat (n / 256 ^ i)

theorem toBeBytes_inj {n m : Nat} (hn : n ≤ u64Max) (hm : m ≤ u64Max)
    (h : toBeBytes n = toBeBytes m) :
    n = m := by
  have hmod : n % 256 ^ 8 = m % 256 ^ 8 := by
    rw [← beNat_beBytes, ← beNat_beBytes]
    exact congrArg beNat h
  unfold u64Max at hn hm
  omega

theorem asBytes_inj {a b : String} (h : asBytes a = asBytes b) : a = b := by
  rw [← fromUtf8Lossy_asBytes a, h, fromUtf8Lossy_asBytes]

theorem asBytes_append (a b : String) : asBytes (a ++ b) = asBytes a ++ asBytes b := by
  unfold asBytes
  rw [String.toList_append, List.flatMap_append]

/-- The length of a text, then the text. -/
def lengthPrefixed (text : String) : List UInt8 := toBeBytes (asBytes text).length ++ asBytes text

/-- The texts are read back from what stands behind their lengths. -/
theorem flatMap_lengthPrefixed_inj {texts texts' : List String}
    (hfits : ∀ text ∈ texts, (asBytes text).length ≤ u64Max)
    (hfits' : ∀ text ∈ texts', (asBytes text).length ≤ u64Max)
    (h : texts.flatMap lengthPrefixed = texts'.flatMap lengthPrefixed) : texts = texts' := by
  have hlength (text : String) : (toBeBytes (asBytes text).length).length = 8 := rfl
  induction texts generalizing texts' with
  | nil =>
      cases texts' with
      | nil => rfl
      | cons text' texts' => exact absurd h (by simp [lengthPrefixed, toBeBytes])
  | cons text texts ih =>
      cases texts' with
      | nil => exact absurd h (by simp [lengthPrefixed, toBeBytes])
      | cons text' texts' =>
          obtain ⟨htext, hrest⟩ := List.forall_mem_cons.mp hfits
          obtain ⟨htext', hrest'⟩ := List.forall_mem_cons.mp hfits'
          simp only [List.flatMap_cons, lengthPrefixed, List.append_assoc] at h
          obtain ⟨hlen, h⟩ := List.append_inj h ((hlength text).trans (hlength text').symm)
          obtain ⟨hbytes, h⟩ := List.append_inj h (toBeBytes_inj htext htext' hlen)
          rw [asBytes_inj hbytes, ih hrest hrest' h]

end Rust
