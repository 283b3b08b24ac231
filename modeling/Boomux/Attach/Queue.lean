import Boomux.Attach.Runtime
import Boomux.Basic.Feed

/-!
# An attachment's queue

The outputs handed out to a kind of attachment are a feed. An attachment joins it at the place that
its reconstruction was made at, and has its share queued until its sender is dropped. What its
thread has written is the front of that share.
-/

set_option autoImplicit false

namespace Boomux.Attach

open Rust Terminal Feed

/-! ## Outputs and calls -/

/-- The bytes of an output frame. -/
def AttachFrame.bytes? : AttachFrame → Option (List UInt8)
  | .output bytes => some bytes
  | _ => none

/-- The outputs among the frames. -/
def outputs (frames : List AttachFrame) : List (List UInt8) := frames.filterMap AttachFrame.bytes?

/-- The outputs among what is sent to an attachment. -/
def dataOf (sent : List ControllerOutput) : List (List UInt8) :=
  sent.filterMap ControllerOutput.bytes?

/-- What is handed out to every attachment of a kind: all but the requests to reconnect. -/
def plain (sent : List ControllerOutput) : List ControllerOutput := sent.filter (· ≠ .reconnect)

/-- The bytes that a call processes. -/
def callBytes : TerminalState.Call → Option (List UInt8)
  | .process bytes => some bytes
  | .resize _ _ => none

/-- What a terminal has processed. -/
def chunks (calls : List TerminalState.Call) : List (List UInt8) := calls.filterMap callBytes

variable {sent sent' pre : List ControllerOutput} {frames frames' : List AttachFrame}
  {calls calls' : List TerminalState.Call} {bytes : List UInt8}

@[simp] theorem outputs_append : outputs (frames ++ frames') = outputs frames ++ outputs frames' :=
  List.filterMap_append

@[simp] theorem dataOf_append : dataOf (sent ++ sent') = dataOf sent ++ dataOf sent' :=
  List.filterMap_append

@[simp] theorem plain_append : plain (sent ++ sent') = plain sent ++ plain sent' :=
  List.filter_append ..

@[simp] theorem chunks_append : chunks (calls ++ calls') = chunks calls ++ chunks calls' :=
  List.filterMap_append

@[simp] theorem plain_reconnect : plain [.reconnect] = [] := rfl

theorem plain_eq_self (h : .reconnect ∉ sent) : plain sent = sent :=
  List.filter_eq_self.mpr fun output ho => by
    have : output ≠ .reconnect := by rintro rfl; exact h ho
    simpa using this

@[simp] theorem dataOf_data : dataOf [.data bytes] = [bytes] := rfl

@[simp] theorem dataOf_resize (size : PtySize) : dataOf [.resize size] = [] := rfl

@[simp] theorem chunks_process : chunks [.process bytes] = [bytes] := rfl

@[simp] theorem chunks_resize (rows cols : Nat) : chunks [.resize rows cols] = [] := rfl

theorem outputs_map_frame (sent : List ControllerOutput) :
    outputs (sent.map ControllerOutput.frame) = dataOf sent := by
  rw [outputs, dataOf, List.filterMap_map]
  congr 1
  funext output
  cases output <;> rfl

theorem dataOf_plain (sent : List ControllerOutput) : dataOf (plain sent) = dataOf sent := by
  rw [dataOf, plain, List.filterMap_filter, dataOf]
  congr 1
  funext output
  cases output <;> rfl

theorem dataOf_mono (h : sent <+: sent') : dataOf sent <+: dataOf sent' := h.filterMap _

theorem plain_mono (h : sent <+: sent') : plain sent <+: plain sent' := h.filter _

/-! ## The place of an attachment -/

/-- The bytes that have been drawn and that attachments of a kind have yet to get; nothing is said
when the reader has left with bytes that it will not hand out. -/
def Reader.pending (reader : Reader) (collaborative : Bool) : Option (List (List UInt8)) :=
  match reader with
  | .reading | .stopped => some []
  | .drawn bytes | .sending bytes => some [bytes]
  | .fanning bytes => some (if collaborative then [bytes] else [])
  | .finishing lost | .clearing lost | .ended lost => if lost = [] then some [] else none

/-- From `since` on the feed of outputs has what the terminal has processed from `cut` on. -/
structure Aligned (reader : Reader) (history : List TerminalState.Call)
    (feed : List ControllerOutput)
    (collaborative : Bool) (cut since : Nat) : Prop where
  cut_le : cut ≤ history.length
  since_le : since ≤ feed.length
  behind : dataOf (feed.drop since) <+: chunks (history.drop cut)
  level : ∀ p, reader.pending collaborative = some p →
    dataOf (feed.drop since) ++ p = chunks (history.drop cut)

namespace Aligned

variable {reader reader' : Reader} {history : List TerminalState.Call}
    {feed : List ControllerOutput}
  {collaborative : Bool} {cut since : Nat} {output : ControllerOutput}

theorem chunks_drop (h : Aligned reader history feed collaborative cut since)
    (more : List TerminalState.Call) :
    chunks ((history ++ more).drop cut) = chunks (history.drop cut) ++ chunks more := by
  rw [List.drop_append_of_le_length h.cut_le, chunks_append]

theorem dataOf_drop (h : Aligned reader history feed collaborative cut since)
    (more : List ControllerOutput) :
    dataOf ((feed ++ more).drop since) = dataOf (feed.drop since) ++ dataOf more := by
  rw [List.drop_append_of_le_length h.since_le, dataOf_append]

/-- The reader moves on while the attachments of the kind wait for the same. -/
theorem of_pending (h : Aligned reader history feed collaborative cut since)
    (hp : ∀ p, reader'.pending collaborative = some p → reader.pending collaborative = some p) :
    Aligned reader' history feed collaborative cut since :=
  ⟨h.cut_le, h.since_le, h.behind, fun p hpending => h.level p (hp p hpending)⟩

/-- The terminal processes more: the attachments wait for it as well, or are behind. -/
theorem call (h : Aligned reader history feed collaborative cut since) (c : TerminalState.Call)
    (hp : ∀ p, reader'.pending collaborative = some p →
      ∃ q, reader.pending collaborative = some q ∧ p = q ++ chunks [c]) :
    Aligned reader' (history ++ [c]) feed collaborative cut since where
  cut_le := by simpa using Nat.le_succ_of_le h.cut_le
  since_le := h.since_le
  behind := by
    rw [h.chunks_drop]
    exact h.behind.trans (List.prefix_append _ _)
  level p hpending := by
    obtain ⟨q, hq, rfl⟩ := hp p hpending
    rw [h.chunks_drop, ← h.level q hq, List.append_assoc]

/-- More is handed out: it was waited for. -/
theorem hand (h : Aligned reader history feed collaborative cut since) {p : List (List UInt8)}
    (hp : reader.pending collaborative = some p) {q : List (List UInt8)}
    (hq : p = dataOf [output] ++ q)
    (hp' : reader'.pending collaborative = some q) :
    Aligned reader' history (feed ++ [output]) collaborative cut since where
  cut_le := h.cut_le
  since_le := by simpa using Nat.le_succ_of_le h.since_le
  behind := by
    rw [h.dataOf_drop, ← h.level p hp, hq, ← List.append_assoc]
    exact List.prefix_append _ _
  level p' hpending := by
    obtain rfl : q = p' := Option.some.inj (hp'.symm.trans hpending)
    rw [h.dataOf_drop, ← h.level p hp, hq, ← List.append_assoc]

/-- A size is handed out. -/
theorem handSize (h : Aligned reader history feed collaborative cut since) (size : PtySize) :
    Aligned reader history (feed ++ [.resize size]) collaborative cut since where
  cut_le := h.cut_le
  since_le := by simpa using Nat.le_succ_of_le h.since_le
  behind := by
    rw [h.dataOf_drop]
    simpa using h.behind
  level p hpending := by
    rw [h.dataOf_drop, ← h.level p hpending]
    simp

/-- Whoever joins between two reads joins at the end of both. -/
theorem join (hpending : ∀ p, reader.pending collaborative = some p → p = []) :
    Aligned reader history feed collaborative history.length feed.length where
  cut_le := Nat.le_refl _
  since_le := Nat.le_refl _
  behind := by simp [dataOf]
  level p hp := by
    rw [hpending p hp]
    simp [dataOf, chunks]

end Aligned

/-! ## One attachment's frames -/

/-- Where the thread of an attachment stands: the outputs `pre` were written, and after them
`ending`. -/
def Worker.Stands (worker : Worker) (broken : Bool) (whole : Prop)
    (taken pre : List ControllerOutput)
    (ending : List AttachFrame) : Prop :=
  match worker with
  | .receiving => taken = pre ∧ ending = []
  | .writing output => taken = pre ++ [output] ∧ ending = []
  | .draining => pre ++ [.reconnect] <+: taken ∧ ending = [.reconnect]
  | .leaving false => ending = [] ∧ (broken = false → taken = pre ∧ whole)
  | .leaving true => ending = [] ∧ broken = true ∨ ending = [.reconnect]
  | .releasing | .ended => ending = [] ∧ broken = true ∨ ending = [.reconnect]
      ∨ ending = [.detached] ∧ (broken = false → taken = pre ∧ whole)

/-- The thread has received all that was handed out to it, and there will be no more. -/
def Attachment.Whole (a : Attachment) (feed : List ControllerOutput) : Prop :=
  a.left.isSome ∧ plain a.taken = share feed a.since a.left

/-- An attachment has got its share of the feed. -/
structure Attachment.Fed (a : Attachment) (feed : List ControllerOutput) : Prop where
  left_le : ∀ m, a.left = some m → m ≤ feed.length
  room : a.queue.length ≤ controllerQueue
  channel : a.worker.alive = true → plain (a.taken ++ a.queue) = share feed a.since a.left
  dropped : a.worker.alive = false → plain a.taken <+: share feed a.since a.left
  written : ∃ pre ending, pre <+: a.taken ∧ .reconnect ∉ pre
    ∧ a.frames = pre.map ControllerOutput.frame ++ ending ∧
    a.worker.Stands a.broken (a.Whole feed) a.taken pre ending

namespace Attachment

variable {a a' : Attachment} {feed : List ControllerOutput} {connected ok : Bool}
    {output : ControllerOutput}

theorem Fed.taken_front (h : a.Fed feed) : plain a.taken <+: share feed a.since a.left := by
  cases halive : a.worker.alive with
  | true => exact h.channel halive ▸ plain_mono (List.prefix_append _ _)
  | false => exact h.dropped halive

/-- What a thread of the attachment leaves alone. -/
structure Kept (a a' : Attachment) : Prop where
  collaborative : a'.collaborative = a.collaborative
  reconstruction : a'.reconstruction = a.reconstruction
  cut : a'.cut = a.cut
  since : a'.since = a.since
  left : a'.left = a.left

/-- An attachment whose receiver is there. -/
theorem Fed.of_alive (halive : a.worker.alive = true)
    (hleft : ∀ m, a.left = some m → m ≤ feed.length)
    (hroom : a.queue.length ≤ controllerQueue)
    (hchannel : plain (a.taken ++ a.queue) = share feed a.since a.left)
    (hwritten : ∃ pre ending, pre <+: a.taken ∧ .reconnect ∉ pre ∧
      a.frames = pre.map ControllerOutput.frame ++ ending ∧
      a.worker.Stands a.broken (a.Whole feed) a.taken pre ending) : a.Fed feed :=
  ⟨hleft, hroom, fun _ => hchannel, fun hdead => (Bool.eq_false_iff.mp hdead halive).elim, hwritten⟩

/-- An attachment whose receiver has been dropped. -/
theorem Fed.of_dead (hdead : a.worker.alive = false)
    (hleft : ∀ m, a.left = some m → m ≤ feed.length)
    (hroom : a.queue.length ≤ controllerQueue)
    (hdropped : plain a.taken <+: share feed a.since a.left)
    (hwritten : ∃ pre ending, pre <+: a.taken ∧ .reconnect ∉ pre ∧
      a.frames = pre.map ControllerOutput.frame ++ ending ∧
      a.worker.Stands a.broken (a.Whole feed) a.taken pre ending) : a.Fed feed :=
  ⟨hleft, hroom, fun halive => (Bool.eq_false_iff.mp hdead halive).elim, fun _ => hdropped,
    hwritten⟩

/-- The receiver is dropped, after a write that failed or not. -/
theorem Fed.dropReceiver (h : a.Fed feed) {ending : List AttachFrame} (reconnect broken : Bool)
    (written : Option Bool)
    (hpre : pre <+: a.taken) (hnot : .reconnect ∉ pre)
    (hframes : a.frames = pre.map ControllerOutput.frame ++ ending)
    (hstands : (Worker.leaving reconnect).Stands broken (a.Whole feed) a.taken pre ending) :
    Kept a { a.dropReceiver reconnect with reconnectWritten := written, broken := broken } ∧
      ({ a.dropReceiver reconnect with
        reconnectWritten := written, broken := broken } : Attachment).Fed feed :=
  ⟨⟨rfl, rfl, rfl, rfl, rfl⟩,
    .of_dead rfl h.left_le (Nat.zero_le _) h.taken_front ⟨pre, ending, hpre, hnot, hframes,
      hstands⟩⟩

theorem Fed.room_tail (h : a.Fed feed) {queue : List ControllerOutput}
    (hqueue : a.queue = output :: queue) :
    queue.length ≤ controllerQueue := by
  have := h.room
  rw [hqueue, List.length_cons] at this
  exact Nat.le_of_succ_le this

theorem Fed.channel_cons (h : a.Fed feed) {queue : List ControllerOutput}
    (hqueue : a.queue = output :: queue)
    (halive : a.worker.alive = true) :
      plain (a.taken ++ [output] ++ queue) = share feed a.since a.left := by
  rw [← h.channel halive, hqueue, List.append_assoc, List.singleton_append]

theorem Fed.receive (h : a.Fed feed) (hleft : connected = false → a.left.isSome)
    (ha : a.receive connected = some a') : Kept a a' ∧ a'.Fed feed := by
  unfold Attachment.receive at ha
  obtain ⟨pre, ending, hpre, hnot, hframes, hstands⟩ := h.written
  split at ha
  next output queue hworker hqueue =>
    obtain rfl := Option.some.inj ha
    rw [hworker] at hstands
    obtain ⟨rfl, rfl⟩ := hstands
    have hchannel := h.channel_cons hqueue (by rw [hworker]; rfl)
    exact ⟨⟨rfl, rfl, rfl, rfl, rfl⟩, .of_alive rfl h.left_le (h.room_tail hqueue) hchannel
      ⟨a.taken, [], List.prefix_append _ _, hnot, hframes, rfl, rfl⟩⟩
  next hworker hqueue =>
    split at ha
    next => cases ha
    next hconnected =>
      obtain rfl := Option.some.inj ha
      rw [hworker] at hstands
      obtain ⟨rfl, rfl⟩ := hstands
      -- The sender is gone and nothing is queued: the thread has received its whole share.
      have hchannel := h.channel (by rw [hworker]; rfl)
      rw [hqueue, List.append_nil] at hchannel
      have hwhole : a.Whole feed := ⟨hleft (by simpa using hconnected), hchannel⟩
      exact h.dropReceiver false a.broken _ hpre hnot hframes ⟨rfl, fun _ => ⟨rfl, hwhole⟩⟩
  next => cases ha

theorem Fed.write (h : a.Fed feed) (ha : a.write ok = some a') : Kept a a' ∧ a'.Fed feed := by
  unfold Attachment.write at ha
  obtain ⟨pre, ending, hpre, hnot, hframes, hstands⟩ := h.written
  split at ha
  next hworker =>
    rw [hworker] at hstands
    obtain ⟨htaken, rfl⟩ := hstands
    split at ha
    next =>
      obtain rfl := Option.some.inj ha
      have hchannel := h.channel (by rw [hworker]; rfl)
      refine ⟨⟨rfl, rfl, rfl, rfl, rfl⟩, .of_alive rfl h.left_le h.room hchannel
        ⟨pre, [.reconnect], hpre, hnot, ?_, ?_, rfl⟩⟩
      · rw [hframes, List.append_nil]
      · exact htaken ▸ List.prefix_refl _
    next =>
      obtain rfl := Option.some.inj ha
      exact h.dropReceiver true true _ hpre hnot hframes (.inl ⟨rfl, rfl⟩)
  next output hnotreconnect hworker =>
    rw [hworker] at hstands
    obtain ⟨htaken, rfl⟩ := hstands
    split at ha
    next =>
      obtain rfl := Option.some.inj ha
      have hchannel := h.channel (by rw [hworker]; rfl)
      refine ⟨⟨rfl, rfl, rfl, rfl, rfl⟩, .of_alive rfl h.left_le h.room hchannel
        ⟨pre ++ [output], [], ?_, ?_, ?_, htaken, rfl⟩⟩
      · exact htaken ▸ List.prefix_refl _
      · rw [List.mem_append, List.mem_singleton, not_or]
        exact ⟨hnot, fun he => hnotreconnect he.symm⟩
      · simp [hframes]
    next =>
      obtain rfl := Option.some.inj ha
      exact h.dropReceiver false true _ hpre hnot hframes ⟨rfl, fun hbroken =>
        Bool.noConfusion hbroken⟩
  next => cases ha

theorem Fed.drain (h : a.Fed feed) (ha : a.drain connected = some a') : Kept a a'
    ∧ a'.Fed feed := by
  unfold Attachment.drain at ha
  obtain ⟨pre, ending, hpre, hnot, hframes, hstands⟩ := h.written
  split at ha
  next output queue hworker hqueue =>
    obtain rfl := Option.some.inj ha
    have halive : a.worker.alive = true := by rw [hworker]; rfl
    rw [hworker] at hstands
    obtain ⟨htaken, rfl⟩ := hstands
    refine ⟨⟨rfl, rfl, rfl, rfl, rfl⟩, .of_alive halive h.left_le (h.room_tail hqueue)
      (h.channel_cons hqueue halive)
      ⟨pre, [.reconnect], hpre.trans (List.prefix_append _ _), hnot, hframes, ?_⟩⟩
    change a.worker.Stands _ _ _ _ _
    rw [hworker]
    exact ⟨htaken.trans (List.prefix_append _ _), rfl⟩
  next hworker hqueue =>
    split at ha
    next => cases ha
    next =>
      obtain rfl := Option.some.inj ha
      rw [hworker] at hstands
      obtain ⟨-, rfl⟩ := hstands
      exact h.dropReceiver true a.broken _ hpre hnot hframes (.inr rfl)
  next => cases ha

theorem Fed.finish (h : a.Fed feed) (ha : a.finish ok = some a') : Kept a a' ∧ a'.Fed feed := by
  unfold Attachment.finish at ha
  obtain ⟨pre, ending, hpre, hnot, hframes, hstands⟩ := h.written
  split at ha
  next hworker =>
    obtain rfl := Option.some.inj ha
    rw [hworker] at hstands
    exact ⟨⟨rfl, rfl, rfl, rfl, rfl⟩, .of_dead rfl h.left_le h.room h.taken_front
      ⟨pre, ending, hpre, hnot, hframes, hstands.imp_right .inl⟩⟩
  next hworker =>
    rw [hworker] at hstands
    obtain ⟨rfl, hwhole⟩ := hstands
    rw [List.append_nil] at hframes
    split at ha
    next =>
      obtain rfl := Option.some.inj ha
      have hframes' : a.frames ++ [.detached] = pre.map ControllerOutput.frame ++ [.detached] := by
        rw [hframes]
      exact ⟨⟨rfl, rfl, rfl, rfl, rfl⟩, .of_dead rfl h.left_le h.room h.taken_front
        ⟨pre, [.detached], hpre, hnot, hframes', .inr (.inr ⟨rfl, hwhole⟩)⟩⟩
    next =>
      obtain rfl := Option.some.inj ha
      have hframes' : a.frames = pre.map ControllerOutput.frame ++ [] := by
        rw [hframes, List.append_nil]
      exact ⟨⟨rfl, rfl, rfl, rfl, rfl⟩, .of_dead rfl h.left_le h.room h.taken_front
        ⟨pre, [], hpre, hnot, hframes', .inl ⟨rfl, rfl⟩⟩⟩
  next => cases ha

theorem Stands.imp {worker : Worker} {broken : Bool} {whole whole' : Prop}
    {taken : List ControllerOutput}
    {ending : List AttachFrame} (himp : whole →
      whole') (h : worker.Stands broken whole taken pre ending) :
    worker.Stands broken whole' taken pre ending := by
  unfold Worker.Stands at h ⊢
  split <;> grind

/-- Its sender is dropped. -/
theorem Fed.leave (h : a.Fed feed) (hleft : a.left = none) :
    ({ a with left := some feed.length } : Attachment).Fed feed := by
  obtain ⟨pre, ending, hpre, hnot, hframes, hstands⟩ := h.written
  have hshare : share feed a.since (some feed.length) = share feed a.since a.left := by
    rw [share_leave, hleft, share_none]
  have hwhole : ¬a.Whole feed := fun hw => by simp [Whole, hleft] at hw
  exact
    { left_le := by
        intro m hm
        exact (Option.some.inj hm).symm ▸ Nat.le_refl _
      room := h.room
      channel := fun halive => (h.channel halive).trans hshare.symm
      dropped := fun hdead => hshare ▸ h.dropped hdead
      written := ⟨pre, ending, hpre, hnot, hframes,
        Stands.imp (fun hw => (hwhole hw).elim) hstands⟩ }

/-- More is handed out after it has left. -/
theorem Fed.append (h : a.Fed feed) {m : Nat} (hleft : a.left = some m)
    (more : List ControllerOutput) :
    a.Fed (feed ++ more) := by
  obtain ⟨pre, ending, hpre, hnot, hframes, hstands⟩ := h.written
  have hshare : share (feed ++ more) a.since a.left = share feed a.since a.left := by
    rw [hleft, share_append_left (h.left_le m hleft)]
  exact
    { left_le := fun n hn => Nat.le_trans (h.left_le n hn) (by simp)
      room := h.room
      channel := fun halive => (h.channel halive).trans hshare.symm
      dropped := fun hdead => hshare ▸ h.dropped hdead
      written := ⟨pre, ending, hpre, hnot, hframes,
        Stands.imp (fun hw => ⟨hw.1, hw.2.trans hshare.symm⟩) hstands⟩ }

theorem hasRoom_push (hroom : a.hasRoom = true) :
    (a.push output).queue.length ≤ controllerQueue := by
  unfold hasRoom at hroom
  simpa [push, Nat.succ_le_iff] using hroom

/-- An output is handed out to it. -/
theorem Fed.push (h : a.Fed feed) (hleft : a.left = none) (hsince : a.since ≤ feed.length)
    (halive : a.worker.alive = true) (hroom : a.hasRoom = true) (houtput : output ≠ .reconnect) :
    (a.push output).Fed (feed ++ [output]) := by
  obtain ⟨pre, ending, hpre, hnot, hframes, hstands⟩ := h.written
  have hwhole : ¬a.Whole feed := fun hw => by simp [Whole, hleft] at hw
  refine .of_alive halive (fun m hm => ?_) (hasRoom_push hroom) ?_
    ⟨pre, ending, hpre, hnot, hframes, Stands.imp (fun hw => (hwhole hw).elim) hstands⟩
  · cases hleft.symm.trans hm
  · have hchannel := h.channel halive
    rw [hleft] at hchannel
    change plain (a.taken ++ (a.queue ++ [output])) = share (feed ++ [output]) a.since a.left
    have hplain : plain [output] = [output] := plain_eq_self (by simpa using houtput.symm)
    rw [hleft, share_append hsince, ← hchannel, ← List.append_assoc, plain_append, hplain]

/-- It is asked to reconnect. -/
theorem Fed.quiesce (h : a.Fed feed) (halive : a.worker.alive = true) (hroom : a.hasRoom = true) :
    (a.push .reconnect).Fed feed := by
  refine .of_alive halive h.left_le (hasRoom_push hroom) ?_ h.written
  change plain (a.taken ++ (a.queue ++ [.reconnect])) = _
  rw [← List.append_assoc, plain_append, plain_reconnect, List.append_nil]
  exact h.channel halive

/-- The output that the thread is about to write. -/
def inHand (a : Attachment) : List ControllerOutput :=
  match a.worker with
  | .writing output => [output]
  | _ => []

theorem Stands.ending {worker : Worker} {broken : Bool} {whole : Prop}
    {taken : List ControllerOutput}
    {ending : List AttachFrame} (h : worker.Stands broken whole taken pre ending) :
    ending = [] ∨ ending = [.reconnect] ∨ ending = [.detached] := by
  unfold Worker.Stands at h
  split at h <;> grind

theorem Stands.of_detached {worker : Worker} {whole : Prop} {taken : List ControllerOutput}
    (h : worker.Stands false whole taken pre [.detached]) : taken = pre ∧ whole := by
  unfold Worker.Stands at h
  split at h <;> simp at h <;> exact h

theorem frame_ne_detached (output : ControllerOutput) : output.frame ≠ .detached := by
  cases output <;> simp [ControllerOutput.frame]

/-- A `Detached` or a `Reconnect` is the last frame that is written. -/
theorem Fed.frames_end (h : a.Fed feed) : ∃ body ending, a.frames = body ++ ending ∧
    (∀ frame ∈ body, frame ≠ .detached ∧ frame ≠ .reconnect) ∧
    (ending = [] ∨ ending = [.reconnect] ∨ ending = [.detached]) := by
  obtain ⟨pre, ending, -, hnot, hframes, hstands⟩ := h.written
  refine ⟨_, _, hframes, fun frame hframe => ?_, Stands.ending hstands⟩
  obtain ⟨output, houtput, rfl⟩ := List.mem_map.mp hframe
  refine ⟨frame_ne_detached output, fun he => ?_⟩
  cases output with
  | reconnect => exact hnot houtput
  | data bytes => cases he
  | resize size => cases he

/-- The outputs that were written are the first ones that were received. -/
theorem Fed.outputs_eq (h : a.Fed feed) : ∃ pre ending, outputs a.frames = dataOf pre
    ∧ pre <+: a.taken ∧
    a.frames = pre.map ControllerOutput.frame ++ ending ∧
    a.worker.Stands a.broken (a.Whole feed) a.taken pre ending := by
  obtain ⟨pre, ending, hpre, -, hframes, hstands⟩ := h.written
  refine ⟨pre, ending, ?_, hpre, hframes, hstands⟩
  have hending : outputs ending = [] := by
    obtain rfl | rfl | rfl := Stands.ending hstands <;> rfl
  rw [hframes, outputs_append, hending, List.append_nil, outputs_map_frame]

/-- What is written is the front of the attachment's share. -/
theorem Fed.outputs_front (h : a.Fed feed) : outputs a.frames <+: dataOf (feed.drop a.since) := by
  obtain ⟨pre, ending, houtputs, hpre, -⟩ := h.outputs_eq
  rw [houtputs]
  refine (dataOf_mono hpre).trans ?_
  rw [← dataOf_plain]
  exact dataOf_mono (h.taken_front.trans share_front)

/-- While its thread waits or writes, the rest of the share is on its way. -/
theorem Fed.outputs_waiting (h : a.Fed feed) (hworker : a.worker = .receiving
    ∨ ∃ output, a.worker = .writing output) :
    outputs a.frames ++ dataOf (a.inHand ++ a.queue) = dataOf (share feed a.since a.left) := by
  obtain ⟨pre, ending, houtputs, -, -, hstands⟩ := h.outputs_eq
  have htaken : a.taken = pre ++ a.inHand := by
    unfold inHand
    obtain hworker | ⟨output, hworker⟩ := hworker
    · rw [hworker] at hstands ⊢
      exact hstands.1.trans (List.append_nil pre).symm
    · rw [hworker] at hstands ⊢
      exact hstands.1
  have halive : a.worker.alive = true := by
    obtain hworker | ⟨output, hworker⟩ := hworker <;> rw [hworker] <;> rfl
  rw [← h.channel halive, dataOf_plain, htaken, houtputs, ← dataOf_append, List.append_assoc]

/-- Once `Detached` is written, the whole share was. -/
theorem Fed.outputs_detached (h : a.Fed feed) (hdetached : .detached ∈ a.frames)
    (hbroken : a.broken = false) :
    a.left.isSome ∧ outputs a.frames = dataOf (share feed a.since a.left) := by
  obtain ⟨pre, ending, houtputs, -, hframes, hstands⟩ := h.outputs_eq
  have hending : ending = [.detached] := by
    rw [hframes, List.mem_append] at hdetached
    obtain hmem | hmem := hdetached
    · obtain ⟨output, -, he⟩ := List.mem_map.mp hmem
      exact absurd he (frame_ne_detached output)
    · obtain rfl | rfl | rfl := Stands.ending hstands <;> simp at hmem ⊢
  rw [hending, hbroken] at hstands
  obtain ⟨htaken, hleft, hwhole⟩ := Stands.of_detached hstands
  exact ⟨hleft, by rw [houtputs, ← htaken, ← dataOf_plain, hwhole]⟩

end Attachment

end Boomux.Attach
