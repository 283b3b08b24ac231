import Boomux.Attach.Frames
import Boomux.Terminal.Modes

/-!
# A shell's attachments

The runtime of one running shell: the thread that reads its PTY, the terminal that the output is
drawn on, one controller, up to four collaborators, and for every attachment a queue between the
reader and the thread that writes the client's frames, and a loop that reads the client's. A step is
what one thread does while it holds the locks that it does it under, so that the steps of all
threads interleave freely.

A token names an attachment. Its sender is held by the controller, or by the collaborator, that has
the token; it is dropped with it. A write to a client carries how it ends.
-/

set_option autoImplicit false

namespace Boomux.Attach

open Rust Terminal

/-- `CONTROLLER_QUEUE`. -/
def controllerQueue : Nat := 64

/-- `MAX_COLLABORATORS_PER_SHELL`. -/
def maxCollaboratorsPerShell : Nat := 4

structure PtySize where
  rows : UInt16
  cols : UInt16
  pixelWidth : UInt16
  pixelHeight : UInt16
  deriving DecidableEq, Repr

/-- `validate_terminal_dimensions`: that they are valid. -/
def validateTerminalDimensions (size : PtySize) : Bool :=
  size.rows ≠ 0 ∧ size.cols ≠ 0 ∧ size.rows.toNat ≤ 1000 ∧ size.cols.toNat ≤ 1000
    ∧ size.rows.toNat * size.cols.toNat ≤ 1000000

/-- What is sent to the thread that writes an attachment's frames. -/
inductive ControllerOutput
  | data (bytes : List UInt8)
  | resize (size : PtySize)
  | reconnect
  deriving DecidableEq, Repr

namespace ControllerOutput

/-- The frame that is written for it. -/
def frame : ControllerOutput → AttachFrame
  | .data bytes => .output bytes
  | .resize size => .resize size.rows size.cols size.pixelWidth size.pixelHeight
  | .reconnect => .reconnect

def bytes? : ControllerOutput → Option (List UInt8)
  | .data bytes => some bytes
  | _ => none

end ControllerOutput

/-! ## One attachment -/

/-- The thread that writes the frames: it waits for an output, writes one, throws outputs away after
a `Reconnect`, has dropped the receiver and has yet to write `Detached`, has yet to release its
token, or has ended. -/
inductive Worker
  | receiving
  | writing (output : ControllerOutput)
  | draining
  | leaving (reconnect : Bool)
  | releasing
  | ended
  deriving DecidableEq, Repr

/-- The receiver has not been dropped. -/
def Worker.alive : Worker → Bool
  | .receiving | .writing _ | .draining => true
  | _ => false

/-- The loop that reads the client's frames. -/
inductive InputLoop
  | reading | leaving | ended
  deriving DecidableEq, Repr

/-- The fields from `cut` on are not in the source: how many calls the terminal had processed at the
reconstruction, how many outputs had been handed out to attachments of this kind when it joined, and
when its sender was dropped, the outputs that its thread has received, and whether a write has
failed. -/
structure Attachment where
  collaborative : Bool
  reconstruction : List UInt8
  queue : List ControllerOutput
  worker : Worker
  frames : List AttachFrame
  reconnectWritten : Option Bool
  input : InputLoop
  cut : Nat
  since : Nat
  left : Option Nat
  taken : List ControllerOutput
  broken : Bool
  deriving DecidableEq, Repr

namespace Attachment

/-- The loop of the thread ends, and `drop(receiver)`. -/
def dropReceiver (a : Attachment) (reconnect : Bool) : Attachment :=
  { a with worker := .leaving reconnect, queue := [] }

/-- `receiver.recv()`, which fails when the sender has been dropped and nothing is queued. -/
def receive (connected : Bool) (a : Attachment) : Option Attachment :=
  match a.worker, a.queue with
  | .receiving, output :: queue =>
      some { a with queue := queue, worker := .writing output, taken := a.taken ++ [output] }
  | .receiving, [] => if connected then none else some (a.dropReceiver false)
  | _, _ => none

/-- Writing the frame of the output that was received. -/
def write (ok : Bool) (a : Attachment) : Option Attachment :=
  match a.worker with
  | .writing .reconnect =>
      if ok then
        some { a with
          frames := a.frames ++ [.reconnect], worker := .draining, reconnectWritten := some true }
      else some { a.dropReceiver true with reconnectWritten := some false, broken := true }
  | .writing output =>
      if ok then some { a with frames := a.frames ++ [output.frame], worker := .receiving }
      else some { a.dropReceiver false with broken := true }
  | _ => none

/-- `while receiver.recv().is_ok() {}`, once. -/
def drain (connected : Bool) (a : Attachment) : Option Attachment :=
  match a.worker, a.queue with
  | .draining, output :: queue => some { a with queue := queue, taken := a.taken ++ [output] }
  | .draining, [] => if connected then none else some (a.dropReceiver true)
  | _, _ => none

/-- Writing `Detached`, unless the client reconnects, and shutting the connection down. -/
def finish (ok : Bool) (a : Attachment) : Option Attachment :=
  match a.worker with
  | .leaving true => some { a with worker := .releasing }
  | .leaving false =>
      if ok then some { a with worker := .releasing, frames := a.frames ++ [.detached] }
      else some { a with worker := .releasing, broken := true }
  | _ => none

/-- `send` and `try_send` of the queue: there is room. -/
def hasRoom (a : Attachment) : Bool := a.queue.length < controllerQueue

def push (output : ControllerOutput) (a : Attachment) : Attachment :=
  { a with queue := a.queue ++ [output] }

def leaveLoop (a : Attachment) : Option Attachment :=
  if a.input = .reading then some { a with input := .leaving } else none

end Attachment

/-! ## The runtime -/

/-- Of a `Controller`: the token, and whether the client's acknowledgement of a `Reconnect` is
waited for. -/
structure Controller (T : Type) where
  token : T
  reconnectAck : Bool
  deriving DecidableEq, Repr

/-- The thread that reads the PTY: it reads, it has drawn the bytes that it read, it holds the
controller's lock and sends them to the controller, it sends them to the collaborators; it has left
its loop and takes the controller, clears the collaborators, has ended, or was told to stop. It
leaves its loop with bytes that it has not handed out when it cannot count them. -/
inductive Reader
  | reading
  | drawn (bytes : List UInt8)
  | sending (bytes : List UInt8)
  | fanning (bytes : List UInt8)
  | finishing (lost : List (List UInt8))
  | clearing (lost : List (List UInt8))
  | ended (lost : List (List UInt8))
  | stopped
  deriving DecidableEq, Repr

/-- A client's frame that the `control` lock is taken for. `ending` is `Detached`, and any that only
the daemon sends. -/
inductive Request
  | input (bytes : List UInt8)
  | resize (size : PtySize)
  | ending
  deriving DecidableEq, Repr

/-- What holds the `control` lock, and waits for another or for the PTY: an attachment that has yet
to look at the participants, or one that was let in, and that has yet to resize the terminal when it
is the controller; a frame whose sender has yet to be looked up; input that the PTY has yet to take;
a resize that waits for the terminal, that has drawn it anew, or that has also resized the PTY. -/
inductive Control (T : Type)
  | entering (token : T) (collaborative takeover : Bool) (size : PtySize)
  | attaching (token : T) (collaborative takeover : Bool) (resize : Option PtySize)
  | reading (token : T) (request : Request)
  | typing (token : T) (bytes : List UInt8)
  | awaiting (token : T) (size : PtySize)
  | resizing (token : T) (size : PtySize)
  | fanning (token : T) (size : PtySize)
  deriving DecidableEq, Repr

/-- The lock is held by the loop of the attachment. -/
def Control.heldBy {T : Type} [DecidableEq T] (t : T) : Control T → Bool
  | .entering _ _ _ _ | .attaching _ _ _ _ => false
  | .reading token _ | .typing token _ | .awaiting token _ | .resizing token _ | .fanning token _ =>
      token = t

/-- `profile` has the dimensions of the lifecycle's profile. The last three fields are not in the
source: the calls that the terminal has processed, and the outputs that were handed out to the
controller, if there was one, and to the collaborators. -/
structure ShellRuntime (T Parser : Type) where
  size : PtySize
  profile : PtySize
  terminal : TerminalState Parser
  outputRevision : Nat
  controller : Option (Controller T)
  collaborators : List (Controller T)
  reader : Reader
  control : Option (Control T)
  input : List UInt8
  attachments : T → Option Attachment
  history : List TerminalState.Call
  sends : List ControllerOutput
  fanouts : List ControllerOutput

/-- What the threads of the runtime do. -/
inductive Action (T : Type)
  | readPty (bytes : List UInt8)
  | lockController
  | sendController
  | fanCollaborators
  | leaveReader
  | stopReader
  | takeController
  | clearCollaborators
  | attach (token : T) (collaborative takeover : Bool) (size : PtySize)
  | checkAttach (resized : Bool)
  | drawResize
  | join (answered spawned : Bool)
  | receive (token : T)
  | write (token : T) (ok : Bool)
  | drain (token : T)
  | finish (token : T) (ok : Bool)
  | releaseWorker (token : T)
  | request (token : T) (request : Request)
  | checkFrame
  | writePty (count : Nat)
  | failPty
  | resizeMaster (ok : Bool)
  | fanResize
  | acknowledge (token : T)
  | hangUp (token : T)
  | releaseInput (token : T)
  | quiesceController
  | quiesceCollaborator (token : T)
  | stopController
  | stopCollaborators
  deriving DecidableEq, Repr

namespace ShellRuntime

variable {T Parser Inner : Type} [DecidableEq T]

/-- A runtime that nothing is attached to, and that has read nothing. -/
structure Fresh (r : ShellRuntime T Parser) : Prop where
  controller : r.controller = none
  collaborators : r.collaborators = []
  reader : r.reader = .reading
  control : r.control = none
  attachments : ∀ t, r.attachments t = none
  history : r.history = []
  sends : r.sends = []
  fanouts : r.fanouts = []

section Operations

variable (r : ShellRuntime T Parser)

/-- The tokens of the collaborators, or of the controller. -/
def tokens (collaborative : Bool) : List T :=
  if collaborative then r.collaborators.map (·.token) else r.controller.toList.map (·.token)

/-- `participant_is_primary`. -/
def participantIsPrimary (t : T) : Bool := r.controller.any (·.token = t)

/-- `participant_is_authorized`. -/
def participantIsAuthorized (t : T) : Bool :=
  r.participantIsPrimary t || r.collaborators.any (·.token = t)

/-- No thread waits inside of the controller's lock. -/
def controllerFree : Bool :=
  match r.reader with
  | .sending _ => false
  | _ => true

/-- No thread holds the terminal's lock between two steps. -/
def terminalFree : Bool :=
  match r.reader with
  | .drawn _ | .sending _ | .fanning _ => false
  | _ => true

/-- What was handed out to the collaborators, or to the controller. -/
def handedOut (collaborative : Bool) : List ControllerOutput :=
  if collaborative then r.fanouts else r.sends

/-- Changing the attachments that have one of the tokens. -/
def modify (tokens : List T) (f : Attachment → Attachment) : ShellRuntime T Parser :=
  { r with attachments := fun t => if t ∈ tokens then (r.attachments t).map f else r.attachments t }

/-- A step of a thread that belongs to one attachment. -/
def only (t : T) (f : Attachment → Option Attachment) : Option (ShellRuntime T Parser) :=
  ((r.attachments t).bind f).map fun a =>
    { r with attachments := fun u => if u = t then some a else r.attachments u }

/-! ### Dropping senders -/

def leave (tokens : List T) : ShellRuntime T Parser :=
  r.modify tokens fun a => { a with left := some (r.handedOut a.collaborative).length }

/-- `controller.take()`. -/
def dropController : ShellRuntime T Parser := { r.leave (r.tokens false) with controller := none }

/-- The collaborators lose those whose tokens are named. -/
def dropCollaborators (named : T → Bool) : ShellRuntime T Parser :=
  { r.leave ((r.tokens true).filter named) with
    collaborators := r.collaborators.filter fun c => !named c.token }

/-- `release_controller`. -/
def releaseController (t : T) : ShellRuntime T Parser :=
  if r.participantIsPrimary t then r.dropController else r.dropCollaborators (· = t)

/-! ### Handing out -/

/-- A `try_send` to the attachment would be accepted. -/
def accepts (t : T) : Bool := (r.attachments t).any fun a => a.worker.alive && a.hasRoom

/-- The first half of `fanout_output`. It waits for room in the queue of a controller whose receiver
is there. -/
def fanoutController (bytes : List UInt8) : Option (ShellRuntime T Parser) :=
  let sent (r : ShellRuntime T Parser) : ShellRuntime T Parser :=
    { r.modify (r.tokens false) (·.push (.data bytes)) with sends := r.sends ++ [.data bytes] }
  match r.controller with
  | none => some (sent r)
  | some controller =>
      if (r.attachments controller.token).any (·.worker.alive) then
        if r.accepts controller.token then some (sent r) else none
      else some (sent r.dropController)

/-- The second half of `fanout_output`, and `fanout_collaborator_resize`. -/
def fanoutCollaborators (output : ControllerOutput) : ShellRuntime T Parser :=
  let r := r.dropCollaborators fun t => !r.accepts t
  { r.modify (r.tokens true) (·.push output) with fanouts := r.fanouts ++ [output] }

/-! ### The reader -/

/-- Reading the PTY, `terminal.process` and counting the output. -/
def readPty (vt : Vt100 Parser Inner) (bytes : List UInt8) : Option (ShellRuntime T Parser) :=
  if r.reader = .reading ∧ bytes ≠ [] ∧ bytes.length ≤ 16 * 1024 then
    let drawn := { r with
      terminal := r.terminal.process vt bytes
      history := r.history ++ [TerminalState.Call.process bytes] }
    match checkedAdd r.outputRevision 1 with
    | none => some { drawn with reader := .finishing [bytes] }
    | some revision => some { drawn with outputRevision := revision, reader := .drawn bytes }
  else none

def lockController : Option (ShellRuntime T Parser) :=
  match r.reader with
  | .drawn bytes => some { r with reader := .sending bytes }
  | _ => none

def sendController : Option (ShellRuntime T Parser) :=
  match r.reader with
  | .sending bytes => (r.fanoutController bytes).map fun r => { r with reader := .fanning bytes }
  | _ => none

def fanCollaborators : Option (ShellRuntime T Parser) :=
  match r.reader with
  | .fanning bytes => some { r.fanoutCollaborators (.data bytes) with reader := .reading }
  | _ => none

def leaveReader (reader : Reader) : Option (ShellRuntime T Parser) :=
  if r.reader = .reading then some { r with reader := reader } else none

def takeController : Option (ShellRuntime T Parser) :=
  match r.reader with
  | .finishing lost => some { r.dropController with reader := .clearing lost }
  | _ => none

def clearCollaborators : Option (ShellRuntime T Parser) :=
  match r.reader with
  | .clearing lost => some { r.dropCollaborators (fun _ => true) with reader := .ended lost }
  | _ => none

/-! ### Attaching -/

/-- `terminal.resize`. -/
def resizeTerminal (vt : Vt100 Parser Inner) (size : PtySize) : ShellRuntime T Parser :=
  { r with
    terminal := r.terminal.resize vt size.rows.toNat size.cols.toNat
    history := r.history ++ [TerminalState.Call.resize size.rows.toNat size.cols.toNat] }

/-- `handle_attach` takes the `control` lock. -/
def attach (t : T) (collaborative takeover : Bool) (size : PtySize) :
    Option (ShellRuntime T Parser) :=
  if r.control ≠ none ∨ (r.attachments t).isSome then none
  else some { r with control := some (.entering t collaborative takeover size) }

/-- Its checks, and the resize of the PTY to the size of a controller. A refused attachment, and one
whose PTY cannot be resized, leaves the runtime as it is. The controller's lock is taken for a
controller only. -/
def checkAttach (resized : Bool) : Option (ShellRuntime T Parser) :=
  match r.control with
  | some (.entering t true takeover _) =>
      if maxCollaboratorsPerShell ≤ r.collaborators.length then some { r with control := none }
      else some { r with control := some (.attaching t true takeover none) }
  | some (.entering t false takeover size) =>
      if !r.controllerFree then none
      else if r.controller.isSome && !takeover then some { r with control := none }
      else if !resized then some { r with control := none }
      else some { r with
        size := size, profile := size, control := some (.attaching t false takeover (some size)) }
  | _ => none

/-- The terminal is resized, once its lock is free. -/
def drawResize (vt : Vt100 Parser Inner) : Option (ShellRuntime T Parser) :=
  match r.control with
  | some (.attaching t collaborative takeover (some size)) =>
      if !r.terminalFree then none
      else some { r.resizeTerminal vt size with
        control := some (.attaching t collaborative takeover none) }
  | some (.awaiting t size) =>
      if !r.terminalFree then none
      else some { r.resizeTerminal vt size with control := some (.resizing t size) }
  | _ => none

/-- Who goes when an attachment joins. -/
def displaced (collaborative takeover : Bool) : ShellRuntime T Parser :=
  if collaborative then r
  else if takeover then r.dropController.dropCollaborators fun _ => true
  else r.dropController

/-- The participant that has joined. -/
def installed (reconstruction : TerminalState Parser → List UInt8) (t : T) (collaborative : Bool) :
    ShellRuntime T Parser :=
  { r with
    controller := if collaborative then r.controller else some ⟨t, false⟩
    collaborators := if collaborative then r.collaborators ++ [⟨t, false⟩] else r.collaborators
    attachments := fun u => if u = t then some {
        collaborative := collaborative
        reconstruction := reconstruction r.terminal
        queue := []
        worker := .receiving
        frames := []
        reconnectWritten := none
        input := .reading
        cut := r.history.length
        since := (r.handedOut collaborative).length
        left := none
        taken := []
        broken := false } else r.attachments u }

/-- The rest of `handle_attach` up to its loop, under the terminal's lock: the response with the
reconstruction is written and the shell still runs, or the attachment ends here; so it does when the
thread cannot be spawned. -/
def join (reconstruction : TerminalState Parser → List UInt8) (answered spawned : Bool) :
    Option (ShellRuntime T Parser) :=
  match r.control with
  | some (.attaching t collaborative takeover none) =>
      if !r.terminalFree then none
      else if !answered then some { r with control := none }
      else
        let r := r.displaced collaborative takeover
        if !spawned then some { r with control := none }
        else some { r.installed reconstruction t collaborative with control := none }
  | _ => none

/-! ### The client's frames -/

/-- The loop reads a frame. -/
def reads (t : T) : Bool :=
  (r.attachments t).any (·.input = .reading) && !r.control.any (·.heldBy t)

/-- It takes the `control` lock for the frame. -/
def takeControl (t : T) (request : Request) : Option (ShellRuntime T Parser) :=
  if r.reads t && r.control.isNone then some { r with control := some (.reading t request) }
    else none

/-- The loop ends, and drops the lock that it holds. -/
def endLoop (t : T) : ShellRuntime T Parser :=
  { r.modify [t] (fun a => { a with input := .leaving }) with control := none }

/-- The participants are looked at, and the frame is checked. -/
def checkFrame : Option (ShellRuntime T Parser) :=
  match r.control with
  | some (.reading t request) =>
      if !r.controllerFree then none
      else if !r.participantIsAuthorized t then some (r.endLoop t)
      else
        match request with
        | .input [] => some { r with control := none }
        | .input bytes => some { r with control := some (.typing t bytes) }
        | .resize size =>
            if !r.participantIsPrimary t then some { r with control := none }
            else if !validateTerminalDimensions size then some (r.endLoop t)
            else some { r with control := some (.awaiting t size) }
        | .ending => some (r.endLoop t)
  | _ => none

/-- `write_controller_input`, once: the PTY takes some of the bytes. While it takes none the lock
stays held. -/
def writePty (count : Nat) : Option (ShellRuntime T Parser) :=
  match r.control with
  | some (.typing t bytes) =>
      if count = 0 ∨ bytes.length < count then none
      else
        let rest := bytes.drop count
        some { r with
          input := r.input ++ bytes.take count
          control := if rest = [] then none else some (.typing t rest) }
  | _ => none

/-- The PTY cannot be written to. -/
def failPty : Option (ShellRuntime T Parser) :=
  match r.control with
  | some (.typing t _) => some (r.endLoop t)
  | _ => none

def resizeMaster (ok : Bool) : Option (ShellRuntime T Parser) :=
  match r.control with
  | some (.resizing t size) =>
      if ok then some { r with size := size, profile := size, control := some (.fanning t size) }
      else some (r.endLoop t)
  | _ => none

def fanResize : Option (ShellRuntime T Parser) :=
  match r.control with
  | some (.fanning _ size) => some { r.fanoutCollaborators (.resize size) with control := none }
  | _ => none

/-- `reconnect_ack.take()`. -/
def takeAck (t : T) : ShellRuntime T Parser :=
  let take (c : Controller T) : Controller T :=
    if c.token = t then { c with reconnectAck := false } else c
  { r with
    controller := r.controller.map take
    collaborators := if r.controller.any fun c => c.token = t && c.reconnectAck then r.collaborators
      else r.collaborators.map take }

/-- A `ReconnectAck` frame. -/
def acknowledge (t : T) : Option (ShellRuntime T Parser) :=
  if r.reads t && r.controllerFree then (r.takeAck t).only t (·.leaveLoop) else none

/-- The connection ends, or carries a frame that cannot be read. -/
def hangUp (t : T) : Option (ShellRuntime T Parser) :=
  if r.reads t then r.only t (·.leaveLoop) else none

/-- A thread of the attachment releases its token and ends. -/
def releaseBy (t : T) (f : Attachment → Option Attachment) : Option (ShellRuntime T Parser) :=
  if r.controllerFree then (r.releaseController t).only t f else none

def releaseWorker (t : T) : Option (ShellRuntime T Parser) :=
  r.releaseBy t fun a => if a.worker = .releasing then some { a with worker := .ended } else none

def releaseInput (t : T) : Option (ShellRuntime T Parser) :=
  r.releaseBy t fun a => if a.input = .leaving then some { a with input := .ended } else none

/-! ### Reconnecting and stopping -/

/-- `quiesce_participant` for the controller. A full queue is an error, and leaves the
acknowledgement asked for. -/
def quiesceController : Option (ShellRuntime T Parser) :=
  match r.controller with
  | some controller =>
      if r.controllerFree then
        if (r.attachments controller.token).any (·.worker.alive) then
          let asked := { r with controller := some { controller with reconnectAck := true } }
          if r.accepts controller.token then
            some (asked.modify [controller.token] (·.push .reconnect)) else some asked
        else some r.dropController
      else none
  | none => none

/-- `quiesce_participant` for a collaborator. -/
def quiesceCollaborator (t : T) : Option (ShellRuntime T Parser) :=
  if t ∈ r.tokens true then
    if (r.attachments t).any (·.worker.alive) then
      let asked := { r with
        collaborators := r.collaborators.map fun c => if c.token = t then
          { c with reconnectAck := true } else c }
      if r.accepts t then some (asked.modify [t] (·.push .reconnect)) else some asked
    else some (r.dropCollaborators (· = t))
  else none

end Operations

/-! ### Steps -/

/-- One step. -/
def step (vt : Vt100 Parser Inner) (reconstruction : TerminalState Parser → List UInt8)
    (r : ShellRuntime T Parser) :
    Action T → Option (ShellRuntime T Parser)
  | .readPty bytes => r.readPty vt bytes
  | .lockController => r.lockController
  | .sendController => r.sendController
  | .fanCollaborators => r.fanCollaborators
  | .leaveReader => r.leaveReader (.finishing [])
  | .stopReader => r.leaveReader .stopped
  | .takeController => r.takeController
  | .clearCollaborators => r.clearCollaborators
  | .attach t collaborative takeover size => r.attach t collaborative takeover size
  | .checkAttach resized => r.checkAttach resized
  | .drawResize => r.drawResize vt
  | .join answered spawned => r.join reconstruction answered spawned
  | .receive t => r.only t (·.receive (r.participantIsAuthorized t))
  | .write t ok => r.only t (·.write ok)
  | .drain t => r.only t (·.drain (r.participantIsAuthorized t))
  | .finish t ok => r.only t (·.finish ok)
  | .releaseWorker t => r.releaseWorker t
  | .request t request => r.takeControl t request
  | .checkFrame => r.checkFrame
  | .writePty count => r.writePty count
  | .failPty => r.failPty
  | .resizeMaster ok => r.resizeMaster ok
  | .fanResize => r.fanResize
  | .acknowledge t => r.acknowledge t
  | .hangUp t => r.hangUp t
  | .releaseInput t => r.releaseInput t
  | .quiesceController => r.quiesceController
  | .quiesceCollaborator t => r.quiesceCollaborator t
  | .stopController => if r.controllerFree then some r.dropController else none
  | .stopCollaborators => some (r.dropCollaborators fun _ => true)

end ShellRuntime

end Boomux.Attach
