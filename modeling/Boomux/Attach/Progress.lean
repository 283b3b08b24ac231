import Boomux.Attach.Delivery

/-!
# Who waits for what

The reader waits for room in the controller's queue while it holds the locks of the terminal and of
the controller. The thread that empties the queue takes neither before it has dropped its receiver,
so that the reader always goes on, and whoever waits for the two locks after it, without a client
doing anything. The loop that writes input to the PTY waits for the program while it holds the
`control` lock, and so do those that wait for it.
-/

set_option autoImplicit false

namespace Boomux.Attach

open Rust Terminal Transition

variable {T Parser Inner : Type} [DecidableEq T] {vt : Vt100 Parser Inner}
  {reconstruction : TerminalState Parser → List UInt8}

/-- How what the threads wait for ends: a write to a client, the response to one that attaches,
spawning its thread, and resizing the PTY. A write to the PTY may also never end. -/
structure Outcomes where
  written : Bool
  answered : Bool
  spawned : Bool
  resized : Bool
  pty : Option Bool

/-- What the daemon's threads do on their own. -/
def Action.own (o : Outcomes) : Action T → Bool
  | .lockController | .sendController | .fanCollaborators | .receive _ | .drain _ => true
  | .drawResize | .checkFrame | .fanResize => true
  | .write _ ok => ok == o.written
  | .checkAttach resized | .resizeMaster resized => resized == o.resized
  | .join answered spawned => answered == o.answered && spawned == o.spawned
  | .writePty _ => o.pty == some true
  | .failPty => o.pty == some false
  | _ => false

namespace ShellRuntime

/-- Some steps of the threads lead from one runtime to another. -/
def Leads (vt : Vt100 Parser Inner) (reconstruction : TerminalState Parser → List UInt8)
    (own : Action T → Bool)
    (r r' : ShellRuntime T Parser) : Prop :=
  ∃ actions, (∀ action ∈ actions, own action = true)
    ∧ exec (ShellRuntime.step vt reconstruction) r actions = some r'

variable {r r' r'' : ShellRuntime T Parser} {own : Action T → Bool} {a : Attachment} {t : T}
    {bytes : List UInt8}

theorem Leads.refl : Leads vt reconstruction own r r := ⟨[], by simp, rfl⟩

theorem Leads.trans (h : Leads vt reconstruction own r r')
    (h' : Leads vt reconstruction own r' r'') :
    Leads vt reconstruction own r r'' := by
  obtain ⟨actions, hown, hexec⟩ := h
  obtain ⟨actions', hown', hexec'⟩ := h'
  refine ⟨actions ++ actions', fun action haction => ?_, by rw [exec_append, hexec]; exact hexec'⟩
  exact (List.mem_append.mp haction).elim (hown action) (hown' action)

theorem Leads.step (action : Action T) (hown : own action = true)
    (hstep : r.step vt reconstruction action = some r') : Leads vt reconstruction own r r' :=
  ⟨[action], by simpa using hown, by rw [exec_cons, hstep]; rfl⟩

theorem Leads.inv {start : TerminalState Parser} {past : ShellRuntime T Parser}
    (h : Leads vt reconstruction own r r') (hinv : r.Inv vt reconstruction start past) :
    r'.Inv vt reconstruction start past := by
  obtain ⟨actions, -, hexec⟩ := h
  exact hinv.reach (reach_of_exec_true hexec)

/-! ## The controller's queue -/

/-- The runtime with another attachment for the token. -/
def put (r : ShellRuntime T Parser) (t : T) (a : Attachment) : ShellRuntime T Parser :=
  { r with attachments := fun u => if u = t then some a else r.attachments u }

theorem only_put {f : Attachment → Option Attachment} {a' : Attachment}
    (ha : r.attachments t = some a)
    (hf : f a = some a') : r.only t f = some (r.put t a') := by
  rw [only, ha, Option.bind_some, hf]
  rfl

/-- The reader goes on when the controller's queue has room, or its receiver is gone. -/
theorem sendController_of_room (hreader : r.reader = .sending bytes)
    (hroom : ∀ controller, r.controller = some controller →
      ∃ a, r.attachments controller.token = some a ∧
      (a.worker.alive = true → a.hasRoom = true)) :
    ∃ r', r.sendController = some r' ∧ r'.reader = .fanning bytes ∧ r'.control = r.control := by
  unfold sendController
  simp only [hreader]
  unfold fanoutController
  cases hcontroller : r.controller with
  | none => exact ⟨_, rfl, rfl, rfl⟩
  | some controller =>
      obtain ⟨a, ha, hroom⟩ := hroom controller hcontroller
      simp only [ha, Option.any_some, accepts]
      cases halive : a.worker.alive with
      | false => exact ⟨_, rfl, rfl, rfl⟩
      | true =>
          rw [hroom halive]
          exact ⟨_, rfl, rfl, rfl⟩

theorem queue_of_full (h : a.hasRoom = false) : ∃ output queue, a.queue = output :: queue := by
  unfold Attachment.hasRoom at h
  cases hqueue : a.queue with
  | nil => simp [hqueue, controllerQueue] at h
  | cons output queue => exact ⟨output, queue, rfl⟩

theorem room_of_tail {output : ControllerOutput} {queue : List ControllerOutput}
    (h : a.queue.length ≤ controllerQueue)
    (hqueue : a.queue = output :: queue) : queue.length < controllerQueue := by
  rw [hqueue, List.length_cons] at h
  exact h

theorem put_self (ha : r.attachments t = some a) : r.put t a = r := by
  unfold put
  congr 1
  funext u
  by_cases hut : u = t
  · simp [hut, ha]
  · simp [hut]

theorem put_put (a a' : Attachment) : (r.put t a).put t a' = r.put t a' := by
  unfold put
  congr 1
  funext u
  dsimp only
  split <;> rfl

/-- The queue takes another output, if its receiver is there. -/
def Ready (a : Attachment) : Prop := a.worker.alive = true → a.hasRoom = true

/-- A thread that is not writing makes room. -/
theorem receives (o : Outcomes) (ha : r.attachments t = some a)
    (hle : a.queue.length ≤ controllerQueue) (hworker : ∀ output, a.worker ≠ .writing output) :
    ∃ a', Ready a' ∧ Leads vt reconstruction (Action.own o) r (r.put t a') := by
  by_cases hready : Ready a
  · exact ⟨a, hready, by rw [put_self ha]; exact .refl⟩
  obtain ⟨halive, hfull⟩ := Classical.not_imp.mp hready
  obtain ⟨output, queue, hqueue⟩ := queue_of_full (Bool.eq_false_iff.mpr hfull)
  have hlt := room_of_tail hle hqueue
  cases hw : a.worker with
  | receiving =>
      let a' := { a with queue := queue, worker := .writing output, taken := a.taken ++ [output] }
      refine ⟨a', fun _ => by simpa [a', Attachment.hasRoom] using hlt, .step (.receive t) rfl ?_⟩
      exact only_put ha (by simp only [Attachment.receive, hw, hqueue, a'])
  | draining =>
      let a' := { a with queue := queue, taken := a.taken ++ [output] }
      refine ⟨a', fun _ => by simpa [a', Attachment.hasRoom] using hlt, .step (.drain t) rfl ?_⟩
      exact only_put ha (by simp only [Attachment.drain, hw, hqueue, a'])
  | writing sent => exact absurd hw (hworker sent)
  | leaving reconnect => simp [hw, Worker.alive] at halive
  | releasing => simp [hw, Worker.alive] at halive
  | ended => simp [hw, Worker.alive] at halive

/-- Writing ends, well or not, and leaves the queue alone or drops it. -/
theorem writes {sent : ControllerOutput} (ok : Bool) (hle : a.queue.length ≤ controllerQueue)
    (hworker : a.worker = .writing sent) : ∃ a', a.write ok = some a'
      ∧ a'.queue.length ≤ controllerQueue ∧
      ∀ output, a'.worker ≠ .writing output := by
  unfold Attachment.write
  rw [hworker]
  cases sent <;> cases ok <;>
    exact ⟨_, rfl, by first | exact hle | exact Nat.zero_le _, by intro output h; cases h⟩

/-- The thread of the attachment makes room, or drops its receiver, however its write ends. -/
theorem makes_room (o : Outcomes) (ha : r.attachments t = some a)
    (hle : a.queue.length ≤ controllerQueue) : ∃ a', Ready a' ∧
      Leads vt reconstruction (Action.own o) r (r.put t a') := by
  by_cases hwriting : ∃ sent, a.worker = .writing sent
  · obtain ⟨sent, hworker⟩ := hwriting
    obtain ⟨b, hb, hle', hworker'⟩ := writes o.written hle hworker
    have hwrite : Leads vt reconstruction (Action.own o) r (r.put t b) :=
      .step (.write t o.written) (by simp [Action.own]) (only_put ha hb)
    have hb' : (r.put t b).attachments t = some b := if_pos rfl
    obtain ⟨a', hready, hleads⟩ := receives o hb' hle' hworker'
    rw [put_put] at hleads
    exact ⟨a', hready, hwrite.trans hleads⟩
  · exact receives o ha hle fun output h => hwriting ⟨output, h⟩

/-! ## The locks -/

section Locks

variable (o : Outcomes) {start : TerminalState Parser} {past : ShellRuntime T Parser}

/-- The reader hands its bytes to the controller. -/
theorem leads_from_sending (h : r.Inv vt reconstruction start past)
    (hreader : r.reader = .sending bytes) :
    ∃ r', Leads vt reconstruction (Action.own o) r r' ∧ r'.reader = .fanning bytes ∧
      r'.control = r.control := by
  cases hcontroller : r.controller with
  | none =>
      obtain ⟨r', hr', hreader', hcontrol⟩ := sendController_of_room hreader fun controller hc => by
        rw [hcontroller] at hc
        cases hc
      exact ⟨r', .step .sendController rfl hr', hreader', hcontrol⟩
  | some controller =>
      obtain ⟨a, ha, -⟩ := h.member false controller.token (by simp [tokens, hcontroller])
      obtain ⟨a', hready, hleads⟩ := makes_room o ha (h.located _ a ha).fed.room
      have hreader' : (r.put controller.token a').reader = .sending bytes := hreader
      obtain ⟨r', hr', hreader', hcontrol⟩ := sendController_of_room hreader' fun c hc => by
        obtain rfl : controller = c := Option.some.inj (hcontroller.symm.trans hc)
        exact ⟨a', if_pos rfl, hready⟩
      exact ⟨r', hleads.trans (.step .sendController rfl hr'), hreader', hcontrol⟩

/-- The reader gives the terminal's lock back. -/
theorem leads_to_terminalFree (h : r.Inv vt reconstruction start past) :
    ∃ r', Leads vt reconstruction (Action.own o) r r' ∧ r'.terminalFree = true ∧
      r'.control = r.control := by
  have hfanning {q : ShellRuntime T Parser} {bytes : List UInt8}
      (hreader : q.reader = .fanning bytes) :
      ∃ r', Leads vt reconstruction (Action.own o) q r' ∧ r'.terminalFree = true ∧
        r'.control = q.control := by
    refine ⟨{ q.fanoutCollaborators (.data bytes) with reader := .reading },
      .step .fanCollaborators rfl ?_,
      rfl, rfl⟩
    change q.fanCollaborators = _
    simp only [fanCollaborators, hreader]
  have hsending {q : ShellRuntime T Parser} {bytes : List UInt8}
      (hq : q.Inv vt reconstruction start past)
      (hreader : q.reader = .sending bytes) :
      ∃ r', Leads vt reconstruction (Action.own o) q r' ∧ r'.terminalFree = true ∧
        r'.control = q.control := by
    obtain ⟨q', hleads, hreader', hcontrol⟩ := leads_from_sending o hq hreader
    obtain ⟨r', hleads', hfree, hcontrol'⟩ := hfanning hreader'
    exact ⟨r', hleads.trans hleads', hfree, hcontrol'.trans hcontrol⟩
  have hfree {q : ShellRuntime T Parser} (hq : q.terminalFree = true) :
      ∃ r', Leads vt reconstruction (Action.own o) q r' ∧ r'.terminalFree = true ∧
        r'.control = q.control := ⟨q, .refl, hq, rfl⟩
  cases hreader : r.reader with
  | reading => exact hfree (by rw [terminalFree, hreader])
  | drawn bytes =>
      have hlock : r.lockController = some { r with reader := .sending bytes } := by
        simp only [lockController, hreader]
      obtain ⟨r', hleads, hfree, hcontrol⟩ := hsending (h.lockController hlock) rfl
      exact ⟨r', .trans (.step .lockController rfl hlock) hleads, hfree, hcontrol⟩
  | sending bytes => exact hsending h hreader
  | fanning bytes => exact hfanning hreader
  | finishing lost => exact hfree (by rw [terminalFree, hreader])
  | clearing lost => exact hfree (by rw [terminalFree, hreader])
  | ended lost => exact hfree (by rw [terminalFree, hreader])
  | stopped => exact hfree (by rw [terminalFree, hreader])

end Locks

/-- Some steps of the threads lead to where the lock that an attachment or a frame holds is free, or
is held by input that the program does not read. -/
def Settles (vt : Vt100 Parser Inner) (reconstruction : TerminalState Parser → List UInt8)
    (o : Outcomes)
    (r : ShellRuntime T Parser) : Prop :=
  ∃ r', Leads vt reconstruction (Action.own o) r r' ∧ r'.terminalFree = true ∧
    (r'.control = none ∨ o.pty = none ∧ ∃ t bytes, r'.control = some (.typing t bytes))

section Control

variable {o : Outcomes} {request : Request} {size : PtySize} {collaborative takeover : Bool}
  {resize : Option PtySize}

theorem Settles.of_none (hfree : r.terminalFree = true) (hcontrol : r.control = none) :
    Settles vt reconstruction o r := ⟨r, .refl, hfree, .inl hcontrol⟩

theorem Settles.step (action : Action T) (hown : action.own o = true)
    (hstep : r.step vt reconstruction action = some r') (h : Settles vt reconstruction o r') :
    Settles vt reconstruction o r := by
  obtain ⟨q, hleads, hq⟩ := h
  exact ⟨q, .trans (.step action hown hstep) hleads, hq⟩

omit [DecidableEq T] in
theorem controllerFree_of_terminalFree (hfree : r.terminalFree = true) :
    r.controllerFree = true := by
  unfold controllerFree
  split
  next bytes hreader => simp [terminalFree, hreader] at hfree
  next => rfl

/-! ### An attachment -/

theorem settles_joining (hfree : r.terminalFree = true)
    (hcontrol : r.control = some (.attaching t collaborative takeover none)) :
      Settles vt reconstruction o r := by
  have hreader : (r.displaced collaborative takeover).reader = r.reader := by
    unfold displaced
    split
    next => rfl
    next => split <;> rfl
  have hfree' : (r.displaced collaborative takeover).terminalFree = true := by
    rw [terminalFree, hreader]
    exact hfree
  have hjoin : ∃ r', r.join reconstruction o.answered o.spawned = some r' ∧ r'.terminalFree = true ∧
      r'.control = none := by
    unfold join
    simp only [hcontrol, hfree, Bool.not_true, Bool.false_eq_true, if_false]
    cases o.answered with
    | false => exact ⟨_, rfl, hfree, rfl⟩
    | true =>
        cases o.spawned with
        | false => exact ⟨_, rfl, hfree', rfl⟩
        | true => exact ⟨_, rfl, hfree', rfl⟩
  obtain ⟨r', hr', hfree'', hnone⟩ := hjoin
  exact .step (.join o.answered o.spawned) (by simp [Action.own]) hr' (.of_none hfree'' hnone)

theorem settles_attaching (hfree : r.terminalFree = true)
    (hcontrol : r.control = some (.attaching t collaborative takeover resize)) :
    Settles vt reconstruction o r := by
  cases resize with
  | none => exact settles_joining hfree hcontrol
  | some size =>
      let r' := { r.resizeTerminal vt size with
        control := some (.attaching t collaborative takeover none) }
      have hdraw : r.drawResize vt = some r' := by
        simp only [drawResize, hcontrol, hfree, Bool.not_true, Bool.false_eq_true, if_false, r']
      exact .step .drawResize rfl hdraw (settles_joining hfree rfl)

theorem settles_entering (hfree : r.terminalFree = true)
    (hcontrol : r.control = some (.entering t collaborative takeover size)) :
      Settles vt reconstruction o r := by
  have hcheck : ∃ r', r.checkAttach o.resized = some r' ∧ r'.terminalFree = true ∧
      (r'.control = none ∨ ∃ resize,
        r'.control = some (.attaching t collaborative takeover resize)) := by
    cases collaborative with
    | true =>
        simp only [checkAttach, hcontrol]
        split
        next => exact ⟨_, rfl, hfree, .inl rfl⟩
        next => exact ⟨_, rfl, hfree, .inr ⟨_, rfl⟩⟩
    | false =>
        simp only [checkAttach, hcontrol, controllerFree_of_terminalFree hfree, Bool.not_true,
          Bool.false_eq_true,
          if_false]
        split
        next => exact ⟨_, rfl, hfree, .inl rfl⟩
        next =>
          split
          next => exact ⟨_, rfl, hfree, .inl rfl⟩
          next => exact ⟨_, rfl, hfree, .inr ⟨_, rfl⟩⟩
  obtain ⟨r', hr', hfree', hcontrol'⟩ := hcheck
  refine .step (.checkAttach o.resized) (by simp [Action.own]) hr' ?_
  obtain hnone | ⟨resize, hattaching⟩ := hcontrol'
  · exact .of_none hfree' hnone
  · exact settles_attaching hfree' hattaching

/-! ### A frame -/

theorem settles_fanning (hfree : r.terminalFree = true)
    (hcontrol : r.control = some (.fanning t size)) :
    Settles vt reconstruction o r := by
  have hfan : r.fanResize = some { r.fanoutCollaborators (.resize size) with control := none } := by
    simp only [fanResize, hcontrol]
  exact .step .fanResize rfl hfan (.of_none hfree rfl)

theorem settles_resizing (hfree : r.terminalFree = true)
    (hcontrol : r.control = some (.resizing t size)) :
    Settles vt reconstruction o r := by
  have hresize : ∃ r', r.resizeMaster o.resized = some r' ∧ r'.terminalFree = true ∧
      (r'.control = none ∨ r'.control = some (.fanning t size)) := by
    simp only [resizeMaster, hcontrol]
    cases o.resized with
    | false => exact ⟨_, rfl, hfree, .inl rfl⟩
    | true => exact ⟨_, rfl, hfree, .inr rfl⟩
  obtain ⟨r', hr', hfree', hcontrol'⟩ := hresize
  refine .step (.resizeMaster o.resized) (by simp [Action.own]) hr' ?_
  obtain hnone | hfanning := hcontrol'
  · exact .of_none hfree' hnone
  · exact settles_fanning hfree' hfanning

theorem settles_awaiting (hfree : r.terminalFree = true)
    (hcontrol : r.control = some (.awaiting t size)) :
    Settles vt reconstruction o r := by
  let r' := { r.resizeTerminal vt size with control := some (.resizing t size) }
  have hdraw : r.drawResize vt = some r' := by
    simp only [drawResize, hcontrol, hfree, Bool.not_true, Bool.false_eq_true, if_false, r']
  exact .step .drawResize rfl hdraw (settles_resizing hfree rfl)

/-- The PTY takes all the bytes, or cannot be written to, or has the lock kept. -/
theorem settles_typing (hfree : r.terminalFree = true) (hbytes : bytes ≠ [])
    (hcontrol : r.control = some (.typing t bytes)) : Settles vt reconstruction o r := by
  cases hpty : o.pty with
  | none => exact ⟨r, .refl, hfree, .inr ⟨hpty, t, bytes, hcontrol⟩⟩
  | some takes =>
      cases takes with
      | false =>
          have hfail : r.failPty = some (r.endLoop t) := by simp only [failPty, hcontrol]
          exact .step .failPty (by simp [Action.own, hpty]) hfail (.of_none hfree rfl)
      | true =>
          have hwrite : r.writePty bytes.length = some { r with
              input := r.input ++ bytes.take bytes.length
              control := if bytes.drop bytes.length = [] then none
                else some (.typing t (bytes.drop bytes.length)) } := by
            simp only [writePty, hcontrol]
            rw [if_neg (by simp [hbytes])]
          refine .step (.writePty bytes.length) (by simp [Action.own, hpty]) hwrite
            (.of_none hfree ?_)
          exact if_pos List.drop_length

theorem settles_reading (hfree : r.terminalFree = true)
    (hcontrol : r.control = some (.reading t request)) :
    Settles vt reconstruction o r := by
  have hcheck : ∃ r', r.checkFrame = some r' ∧ r'.terminalFree = true ∧ (r'.control = none ∨
      (∃ bytes, bytes ≠ [] ∧ r'.control = some (.typing t bytes))
        ∨ ∃ size, r'.control = some (.awaiting t size)) := by
    simp only [checkFrame, hcontrol, controllerFree_of_terminalFree hfree, Bool.not_true,
      Bool.false_eq_true, if_false]
    split
    next => exact ⟨_, rfl, hfree, .inl rfl⟩
    next =>
      cases request with
      | ending => exact ⟨_, rfl, hfree, .inl rfl⟩
      | input bytes =>
          cases bytes with
          | nil => exact ⟨_, rfl, hfree, .inl rfl⟩
          | cons byte bytes => exact ⟨_, rfl, hfree, .inr (.inl ⟨_, List.cons_ne_nil _ _, rfl⟩)⟩
      | resize size =>
          dsimp only
          split
          next => exact ⟨_, rfl, hfree, .inl rfl⟩
          next =>
            split
            next => exact ⟨_, rfl, hfree, .inl rfl⟩
            next => exact ⟨_, rfl, hfree, .inr (.inr ⟨size, rfl⟩)⟩
  obtain ⟨r', hr', hfree', hcontrol'⟩ := hcheck
  refine .step .checkFrame rfl hr' ?_
  obtain hnone | ⟨bytes, hbytes, htyping⟩ | ⟨size, hawaiting⟩ := hcontrol'
  · exact .of_none hfree' hnone
  · exact settles_typing hfree' hbytes htyping
  · exact settles_awaiting hfree' hawaiting

/-- Whoever holds the `control` lock goes on, once the terminal's is free. -/
theorem settles (hfree : r.terminalFree = true) (hwaits : ∀ k, r.control = some k → r.Waits k) :
    Settles vt reconstruction o r := by
  cases hcontrol : r.control with
  | none => exact .of_none hfree hcontrol
  | some control =>
      cases control with
      | entering t collaborative takeover size => exact settles_entering hfree hcontrol
      | attaching t collaborative takeover resize => exact settles_attaching hfree hcontrol
      | reading t request => exact settles_reading hfree hcontrol
      | typing t bytes => exact settles_typing hfree (hwaits _ hcontrol) hcontrol
      | awaiting t size => exact settles_awaiting hfree hcontrol
      | resizing t size => exact settles_resizing hfree hcontrol
      | fanning t size => exact settles_fanning hfree hcontrol

end Control

/-- From every state that the runtime reaches its threads go on, however a client behaves: whether
writes to clients succeed or fail, the steps that the daemon takes on its own lead to a state where
the locks of the terminal and of the controller are free, and so is the one that attachments and
resizes wait for, unless the program does not read the input that the holder of the lock writes to
its PTY. -/
theorem locks_released (o : Outcomes) {r₀ : ShellRuntime T Parser} (hfresh : r₀.Fresh)
    (hr : Reach (ShellRuntime.step vt reconstruction) (fun _ _ => True) r₀ r) :
    ∃ r', Leads vt reconstruction (Action.own o) r r' ∧ r'.terminalFree = true
      ∧ r'.controllerFree = true ∧
      (r'.control = none ∨ o.pty = none ∧ ∃ t bytes, r'.control = some (.typing t bytes)) := by
  have hinv : r.Inv vt reconstruction r₀.terminal r₀ := hfresh.inv.reach hr
  obtain ⟨q, hleads, hfree, -⟩ := leads_to_terminalFree o hinv
  obtain ⟨r', hleads', hfree', hcontrol⟩ : Settles vt reconstruction o q :=
    settles hfree (hleads.inv hinv).waits
  exact ⟨r', hleads.trans hleads', hfree', controllerFree_of_terminalFree hfree', hcontrol⟩

/-- The reader reads a byte and hands it out. -/
def delivery : List (Action Nat) :=
  [.readPty [0x79], .lockController, .sendController, .fanCollaborators]

/-- A client reads nothing while 65 outputs are sent to it, of which one is being written and the
others fill its queue. It sends a `Resize`, which waits for the terminal, and the reader draws
another output and waits for room. -/
def jam : List (Action Nat) :=
  [.attach 1 false false ⟨2, 4, 0, 0⟩, .checkAttach true, .drawResize, .join true true] ++
    delivery ++ [.receive 1]
    ++ (List.replicate controllerQueue delivery).flatten
    ++ [.request 1 (.resize ⟨3, 4, 0, 0⟩), .checkFrame, .readPty [0x79], .lockController]

def jammed : ShellRuntime Nat (Nat × Nat) :=
  (exec (ShellRuntime.step TerminalState.undrawn fun _ => []) idleRuntime jam).getD idleRuntime

/-- The client's connection breaks, and the reader and the `Resize` go on. -/
theorem locks_released_jammed :
    exec (ShellRuntime.step TerminalState.undrawn fun _ => []) idleRuntime jam = some jammed ∧
    jammed.sendController.isNone = true ∧ jammed.control = some (.awaiting 1 ⟨3, 4, 0, 0⟩) ∧
    ∃ r', Leads TerminalState.undrawn (fun _ => [])
      (Action.own ⟨false, true, true, true, some true⟩) jammed r' ∧
      r'.terminalFree = true ∧ r'.controllerFree = true ∧ r'.control = none := by
  have hjam : (exec (ShellRuntime.step TerminalState.undrawn fun _ => []) idleRuntime jam).isSome =
      true ∧
      jammed.sendController.isNone = true ∧ jammed.control = some (.awaiting 1 ⟨3, 4, 0, 0⟩) := by
    decide +kernel
  obtain ⟨hsome, hwaits, hcontrol⟩ := hjam
  have hexec : exec (ShellRuntime.step TerminalState.undrawn fun _ => []) idleRuntime jam =
      some jammed :=
    eq_some_getD _ hsome
  have hfresh : idleRuntime.Fresh := ⟨rfl, rfl, rfl, rfl, fun _ => rfl, rfl, rfl, rfl⟩
  obtain ⟨r', hleads, hterminal, hcontroller, hfree⟩ :=
    locks_released ⟨false, true, true, true, some true⟩ hfresh (reach_of_exec_true hexec)
  refine ⟨hexec, hwaits, hcontrol, r', hleads, hterminal, hcontroller, ?_⟩
  obtain hfree | ⟨hnone, -⟩ := hfree
  · exact hfree
  · cases hnone

end ShellRuntime

end Boomux.Attach
