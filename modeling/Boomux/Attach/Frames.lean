import Boomux.Basic.Bytes

/-!
# Attach frames

The frames between a daemon and an attached client: a kind, the length of the payload in four bytes,
the payload. A writer is what it has written, a reader the bytes that it has yet to read.
-/

set_option autoImplicit false

namespace Boomux.Attach

open Rust

/-- `MAX_ATTACH_FRAME`. -/
def maxAttachFrame : Nat := 1024 * 1024

inductive AttachFrame
  | input (bytes : List UInt8)
  | output (bytes : List UInt8)
  | resize (rows cols pixelWidth pixelHeight : UInt16)
  | detached
  | reconnect
  | reconnectAck
  | focusGained
  deriving DecidableEq, Repr

namespace AttachFrame

def inputKind : UInt8 := 1
def outputKind : UInt8 := 2
def resizeKind : UInt8 := 3
def detachedKind : UInt8 := 4
def reconnectKind : UInt8 := 5
def reconnectAckKind : UInt8 := 6
def focusGainedKind : UInt8 := 7

/-! ## Writing -/

/-- The end of `write_to` for a kind and a payload: how it ends, and what it has written. -/
def writePayload (kind : UInt8) (payload : List UInt8) : Except IoError Unit × List UInt8 :=
  if maxAttachFrame < payload.length then (.error ⟨.invalidInput, "attach frame too large"⟩, [])
  else (.ok (), [kind] ++ beBytes 4 payload.length ++ payload)

def writeTo : AttachFrame → Except IoError Unit × List UInt8
  | .input bytes => writePayload inputKind bytes
  | .output bytes => writePayload outputKind bytes
  | .resize rows cols pixelWidth pixelHeight =>
      (.ok (), [resizeKind] ++ beBytes 4 8 ++ beBytes 2 rows.toNat ++ beBytes 2 cols.toNat ++
        beBytes 2 pixelWidth.toNat ++ beBytes 2 pixelHeight.toNat)
  | .detached => writePayload detachedKind []
  | .reconnect => writePayload reconnectKind []
  | .reconnectAck => writePayload reconnectAckKind []
  | .focusGained => writePayload focusGainedKind []

/-! ## Reading -/

/-- How reading fails: the bytes end, or they are no frame. -/
inductive ReadError
  | unexpectedEof
  | invalid (error : IoError)
  deriving DecidableEq, Repr

/-- `read_exact`: the bytes read, and those left. -/
def readExact (count : Nat) (bytes : List UInt8) : Except ReadError (List UInt8 × List UInt8) :=
  if bytes.length < count then .error .unexpectedEof else .ok (bytes.take count, bytes.drop count)

/-- `u16::from_be_bytes` of the payload's two bytes from a place on. -/
def u16At (payload : List UInt8) (i : Nat) : UInt16 :=
  UInt16.ofNat (beNat ((payload.drop i).take 2))

/-- The `match` of `read_from`. -/
def ofPayload (kind : UInt8) (payload : List UInt8) : Option AttachFrame :=
  if kind = inputKind then some (.input payload)
  else if kind = outputKind then some (.output payload)
  else if kind = resizeKind ∧ payload.length = 8 then
    some (.resize (u16At payload 0) (u16At payload 2) (u16At payload 4) (u16At payload 6))
  else if kind = detachedKind ∧ payload = [] then some .detached
  else if kind = reconnectKind ∧ payload = [] then some .reconnect
  else if kind = reconnectAckKind ∧ payload = [] then some .reconnectAck
  else if kind = focusGainedKind ∧ payload = [] then some .focusGained
  else none

def readFrom (bytes : List UInt8) : Except ReadError (AttachFrame × List UInt8) := do
  let (kind, bytes) ← readExact 1 bytes
  let (length, bytes) ← readExact 4 bytes
  let length := beNat length
  require (length ≤ maxAttachFrame) (.invalid ⟨.invalidData, "attach frame too large"⟩)
  let (payload, bytes) ← readExact length bytes
  match ofPayload (kind.headD 0) payload with
  | some frame => .ok (frame, bytes)
  | none => .error (.invalid ⟨.invalidData, "invalid attach frame"⟩)

/-- Frame after frame until the bytes end. -/
def readAll : Nat → List UInt8 → Except ReadError (List AttachFrame)
  | 0, _ => .ok []
  | fuel + 1, bytes =>
      if bytes = [] then .ok []
      else do
        let (frame, rest) ← readFrom bytes
        let frames ← readAll fuel rest
        .ok (frame :: frames)

/-! ## One frame -/

variable {frame : AttachFrame} {kind : UInt8} {payload bytes rest : List UInt8}

/-- The bytes of a kind and a payload. -/
def encoded (kind : UInt8) (payload : List UInt8) : List UInt8 :=
  [kind] ++ beBytes 4 payload.length ++ payload

/-- The payload of the frame, if it is free, is not too large. -/
def Fits : AttachFrame → Prop
  | .input bytes => bytes.length ≤ maxAttachFrame
  | .output bytes => bytes.length ≤ maxAttachFrame
  | _ => True

instance : DecidablePred Fits := fun frame => by
  cases frame <;> unfold Fits <;> infer_instance

theorem beBytes_u16At (payload : List UInt8) (i : Nat) (h : i + 2 ≤ payload.length) :
    beBytes 2 (u16At payload i).toNat = (payload.drop i).take 2 := by
  have hlength : ((payload.drop i).take 2).length = 2 := by
    rw [List.length_take, List.length_drop]
    omega
  have hlt := beNat_lt ((payload.drop i).take 2)
  have hbytes := beBytes_beNat ((payload.drop i).take 2)
  rw [hlength] at hlt hbytes
  rw [u16At, UInt16.toNat_ofNat_of_lt' hlt, hbytes]

theorem ofNat_beNat_beBytes (n : UInt16) : UInt16.ofNat (beNat (beBytes 2 n.toNat)) = n := by
  rw [beNat_beBytes, Nat.mod_eq_of_lt (show n.toNat < 256 ^ 2 from n.toNat_lt), UInt16.ofNat_toNat]

/-- A frame is written as a kind and a payload, and is what the reader makes of them. -/
theorem writeTo_of_fits (h : frame.Fits) :
    ∃ kind payload, frame.writeTo = (.ok (), encoded kind payload)
    ∧ payload.length ≤ maxAttachFrame ∧ ofPayload kind payload = some frame := by
  have hfree (kind : UInt8) {payload : List UInt8} (hle : payload.length ≤ maxAttachFrame) :
      writePayload kind payload = (.ok (), encoded kind payload) := by
    rw [writePayload, if_neg (Nat.not_lt.mpr hle), encoded]
  cases frame with
  | input bytes => exact ⟨inputKind, bytes, hfree _ h, h, rfl⟩
  | output bytes => exact ⟨outputKind, bytes, hfree _ h, h, rfl⟩
  | resize rows cols pixelWidth pixelHeight =>
      refine ⟨resizeKind, beBytes 2 rows.toNat ++ beBytes 2 cols.toNat ++
        beBytes 2 pixelWidth.toNat ++
        beBytes 2 pixelHeight.toNat, ?_, ?_, ?_⟩
      · simp [writeTo, encoded]
      · simp [maxAttachFrame]
      · show some (AttachFrame.resize (UInt16.ofNat (beNat (beBytes 2 rows.toNat)))
          (UInt16.ofNat (beNat (beBytes 2 cols.toNat)))
            (UInt16.ofNat (beNat (beBytes 2 pixelWidth.toNat)))
          (UInt16.ofNat (beNat (beBytes 2 pixelHeight.toNat)))) = _
        simp only [ofNat_beNat_beBytes]
  | detached => exact ⟨detachedKind, [], hfree _ (Nat.zero_le _), Nat.zero_le _, rfl⟩
  | reconnect => exact ⟨reconnectKind, [], hfree _ (Nat.zero_le _), Nat.zero_le _, rfl⟩
  | reconnectAck => exact ⟨reconnectAckKind, [], hfree _ (Nat.zero_le _), Nat.zero_le _, rfl⟩
  | focusGained => exact ⟨focusGainedKind, [], hfree _ (Nat.zero_le _), Nat.zero_le _, rfl⟩

/-- The reader's frames are written back as the kind and the payload that they were read from. -/
theorem writeTo_of_ofPayload (h : ofPayload kind payload = some frame)
    (hle : payload.length ≤ maxAttachFrame) :
    frame.writeTo = (.ok (), encoded kind payload) := by
  have hfree (kind : UInt8) : writePayload kind payload = (.ok (), encoded kind payload) := by
    rw [writePayload, if_neg (Nat.not_lt.mpr hle), encoded]
  have hnone {kind' : UInt8} (h : kind = kind' ∧ payload = []) :
      writePayload kind' [] = (.ok (), encoded kind payload) := by
    rw [h.1, h.2]
    rfl
  unfold ofPayload at h
  split at h
  next hkind =>
    obtain rfl := Option.some.inj h
    rw [hkind, writeTo, hfree]
  split at h
  next hkind =>
    obtain rfl := Option.some.inj h
    rw [hkind, writeTo, hfree]
  split at h
  next hresize =>
    obtain ⟨hkind, hlength⟩ := hresize
    obtain rfl := Option.some.inj h
    -- The eight bytes of a size are four numbers of two bytes.
    have hpieces : (payload.drop 0).take 2 ++ (payload.drop 2).take 2 ++ (payload.drop 4).take 2 ++
        (payload.drop 6).take 2 = payload := by
      match payload, hlength with
      | [_, _, _, _, _, _, _, _], _ => rfl
    rw [writeTo, beBytes_u16At _ _ (by omega), beBytes_u16At _ _ (by omega),
      beBytes_u16At _ _ (by omega),
      beBytes_u16At _ _ (by omega), encoded, hkind, hlength]
    conv_rhs => rw [← hpieces]
    simp only [List.append_assoc]
  split at h
  next hkind =>
    obtain rfl := Option.some.inj h
    exact hnone hkind
  split at h
  next hkind =>
    obtain rfl := Option.some.inj h
    exact hnone hkind
  split at h
  next hkind =>
    obtain rfl := Option.some.inj h
    exact hnone hkind
  split at h
  next hkind =>
    obtain rfl := Option.some.inj h
    exact hnone hkind
  cases h

/-! ## Frame after frame -/

/-- Reading takes a kind, a length and a payload. -/
theorem readFrom_encoded (rest : List UInt8) (hle : payload.length ≤ maxAttachFrame)
    (hframe : ofPayload kind payload = some frame) :
    readFrom (encoded kind payload ++ rest) = .ok (frame, rest) := by
  have hlength : beNat (beBytes 4 payload.length) = payload.length := by
    rw [beNat_beBytes, Nat.mod_eq_of_lt (Nat.lt_of_le_of_lt hle (by decide))]
  have hread {count : Nat} {piece : List UInt8} (hpiece : piece.length = count)
      (rest : List UInt8) :
      readExact count (piece ++ rest) = .ok (piece, rest) := by
    have hlong : ¬(piece ++ rest).length < count := by
      rw [List.length_append]
      omega
    rw [readExact, if_neg hlong, List.take_left' hpiece, List.drop_left' hpiece]
  simp only [readFrom, bind_eq_ok, require_eq_ok, decide_eq_true_iff]
  refine ⟨([kind], beBytes 4 payload.length ++ (payload ++ rest)), ?_,
    (beBytes 4 payload.length, payload ++ rest), hread (length_beBytes _ _) _, (), ?_,
    (payload, rest), hread hlength.symm _, ?_⟩
  · rw [encoded, List.append_assoc, List.append_assoc]
    exact hread (List.length_singleton (a := kind)) _
  · rw [hlength]
    exact hle
  · rw [List.headD_cons, hframe]

/-- What is read is the start of the bytes: a kind and a payload that make the frame. -/
theorem of_readFrom_eq_ok (h : readFrom bytes = .ok (frame, rest)) : ∃ kind payload,
    bytes = encoded kind payload ++ rest ∧ payload.length ≤ maxAttachFrame
      ∧ ofPayload kind payload = some frame := by
  have hread {count : Nat} {bytes piece rest : List UInt8} (h : readExact count bytes = .ok (piece,
      rest)) :
      bytes = piece ++ rest ∧ piece.length = count := by
    unfold readExact at h
    split at h
    · cases h
    next hlong =>
      obtain ⟨rfl, rfl⟩ := Prod.mk.inj (Except.ok.inj h)
      exact ⟨(List.take_append_drop count bytes).symm, List.length_take_of_le (Nat.not_lt.mp hlong)⟩
  simp only [readFrom, bind_eq_ok, require_eq_ok, decide_eq_true_iff] at h
  obtain ⟨⟨kind, bytes₁⟩, hkind, ⟨length, bytes₂⟩, hlength, _, hle, ⟨payload, bytes₃⟩, hpayload,
      h⟩ := h
  obtain ⟨rfl, hone⟩ := hread hkind
  obtain ⟨rfl, hfour⟩ := hread hlength
  obtain ⟨rfl, hpayload⟩ := hread hpayload
  split at h
  next found hfound =>
    obtain ⟨rfl, rfl⟩ := Prod.mk.inj (Except.ok.inj h)
    obtain ⟨byte, rfl⟩ := List.length_eq_one_iff.mp hone
    have hbytes := beBytes_beNat length
    rw [hfour] at hbytes
    refine ⟨byte, payload, ?_, hpayload ▸ hle, hfound⟩
    rw [encoded, hpayload, hbytes, List.append_assoc, List.append_assoc]
  · cases h

/-- A frame that does not fit is not written at all. -/
theorem writeTo_of_not_fits (h : ¬frame.Fits) :
    frame.writeTo = (.error ⟨.invalidInput, "attach frame too large"⟩, []) := by
  cases frame with
  | input bytes => rw [writeTo, writePayload, if_pos (Nat.not_le.mp h)]
  | output bytes => rw [writeTo, writePayload, if_pos (Nat.not_le.mp h)]
  | resize => exact absurd trivial h
  | detached => exact absurd trivial h
  | reconnect => exact absurd trivial h
  | reconnectAck => exact absurd trivial h
  | focusGained => exact absurd trivial h

/-- The frames that fit are read back from what is written of all of them. -/
theorem readAll_written (frames : List AttachFrame) {fuel : Nat}
    (hfuel : (frames.flatMap fun frame => frame.writeTo.2).length ≤ fuel) :
    readAll fuel (frames.flatMap fun frame => frame.writeTo.2) = .ok (frames.filter fun frame =>
      frame.Fits) := by
  induction frames generalizing fuel with
  | nil => cases fuel <;> rfl
  | cons frame frames ih =>
      rw [List.flatMap_cons] at hfuel ⊢
      by_cases hfits : frame.Fits
      · obtain ⟨kind, payload, hwrite, hle, hframe⟩ := writeTo_of_fits hfits
        rw [hwrite] at hfuel ⊢
        cases fuel with
        | zero =>
            rw [List.length_append, encoded] at hfuel
            simp at hfuel
        | succ fuel =>
            have hrest : (frames.flatMap fun frame => frame.writeTo.2).length ≤ fuel := by
              simp only [List.length_append, encoded, List.length_singleton] at hfuel
              omega
            have hne : encoded kind payload ++ (frames.flatMap fun frame => frame.writeTo.2) ≠ [] :=
              List.cons_ne_nil _ _
            rw [readAll, if_neg hne, readFrom_encoded _ hle hframe]
            dsimp only [bind, Except.bind]
            rw [ih hrest, List.filter_cons, if_pos (decide_eq_true hfits)]
      · rw [writeTo_of_not_fits hfits] at hfuel ⊢
        rw [List.filter_cons, if_neg (by simpa using hfits)]
        exact ih hfuel

/-- Attach frames. What is written of any frames is read as those that fit, hence as all of them if
all fit; bytes that are read as a frame start with what is written of it; and nothing is written
of a frame that does not fit. -/
theorem frames_round_trip :
    (∀ frames : List AttachFrame, (∀ frame ∈ frames, frame.Fits) →
      readAll (frames.flatMap fun frame => frame.writeTo.2).length (frames.flatMap fun frame =>
        frame.writeTo.2)
        = .ok frames)
    ∧ (∀ bytes frame rest, readFrom bytes = .ok (frame, rest) →
      ∃ written, frame.writeTo = (.ok (), written) ∧ bytes = written ++ rest)
    ∧ (∀ frame : AttachFrame, ¬frame.Fits → ∃ error, frame.writeTo = (.error error, []))
    ∧ ∀ frames : List AttachFrame,
      readAll (frames.flatMap fun frame => frame.writeTo.2).length (frames.flatMap fun frame =>
        frame.writeTo.2)
        = .ok (frames.filter fun frame => frame.Fits) := by
  refine ⟨fun frames hfits => ?_, fun bytes frame rest h => ?_, fun frame h =>
    ⟨_, writeTo_of_not_fits h⟩,
    fun frames => readAll_written frames (Nat.le_refl _)⟩
  · rw [readAll_written frames (Nat.le_refl _),
      List.filter_eq_self.mpr fun frame hframe => decide_eq_true (hfits frame hframe)]
  · obtain ⟨kind, payload, hbytes, hle, hframe⟩ := of_readFrom_eq_ok h
    exact ⟨_, writeTo_of_ofPayload hframe hle, hbytes⟩

/-- A key, a new size and the end are read back; an end is read from its five bytes; a payload of
one byte too many is not written. -/
theorem frames_round_trip_session :
    readAll 24 ([AttachFrame.input [97], .resize 24 80 0 0, .detached].flatMap fun frame =>
      frame.writeTo.2)
      = .ok [.input [97], .resize 24 80 0 0, .detached]
    ∧ (∃ written, detached.writeTo = (.ok (), written) ∧ [4, 0, 0, 0, 0] = written ++ [])
    ∧ ∃ error, (AttachFrame.input (List.replicate (maxAttachFrame + 1) 0)).writeTo = (.error error,
      []) := by
  obtain ⟨hall, hone, hlarge, -⟩ := frames_round_trip
  refine ⟨hall [.input [97], .resize 24 80 0 0, .detached] ?_, hone _ _ _ ?_, hlarge _ ?_⟩
  · intro frame hframe
    rcases List.mem_cons.mp hframe with rfl | hframe
    · exact Nat.le_of_ble_eq_true rfl
    · rcases List.mem_cons.mp hframe with rfl | hframe
      · exact trivial
      · rw [List.mem_singleton.mp hframe]
        exact trivial
  · decide +kernel
  · rw [Fits, List.length_replicate]
    exact Nat.not_succ_le_self _

end AttachFrame

end Boomux.Attach
