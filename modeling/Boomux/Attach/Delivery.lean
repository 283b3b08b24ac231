import Boomux.Attach.Queue
import Boomux.Basic.Run

/-!
# What reaches an attached client

An attachment joins the feed of its kind under the terminal's lock, so a client reads the
reconstruction and from there on every output, in order, up to the place where it is told to
reconnect or that it is detached.
-/

set_option autoImplicit false

namespace Boomux.Attach

open Rust Terminal Transition Feed

namespace ShellRuntime

variable {T Parser Inner : Type} (vt : Vt100 Parser Inner)
  (reconstruction : TerminalState Parser → List UInt8) (start : TerminalState Parser)

/-- One call of a terminal. -/
def draw (terminal : TerminalState Parser) : TerminalState.Call → TerminalState Parser
  | .process bytes => terminal.process vt bytes
  | .resize rows cols => terminal.resize vt rows cols

/-- The terminal after the calls. -/
def replay (calls : List TerminalState.Call) : TerminalState Parser := calls.foldl (draw vt) start

theorem replay_append (calls : List TerminalState.Call) (call : TerminalState.Call) :
    replay vt start (calls ++ [call]) = draw vt (replay vt start calls) call := List.foldl_append

/-- An attachment is at its place in the feed, and has got its share from there on. -/
structure Located (r : ShellRuntime T Parser) (a : Attachment) : Prop where
  aligned : Aligned r.reader r.history (r.handedOut a.collaborative) a.collaborative a.cut a.since
  fed : a.Fed (r.handedOut a.collaborative)
  drawn : a.reconstruction = reconstruction (replay vt start (r.history.take a.cut))

/-- An attachment later on, when `n` outputs had been handed out before. -/
structure Later (n : Nat) (a a' : Attachment) : Prop where
  collaborative : a'.collaborative = a.collaborative
  cut : a'.cut = a.cut
  since : a'.since = a.since
  left : ∀ m, a'.left = some m → a.left = some m ∨ n ≤ m

/-- A runtime later on. -/
structure Grows (past r : ShellRuntime T Parser) : Prop where
  history : past.history <+: r.history
  handedOut : ∀ c, past.handedOut c <+: r.handedOut c
  attachments : ∀ t a, past.attachments t = some a →
    ∃ a', r.attachments t = some a' ∧ Later (past.handedOut a.collaborative).length a a'

/-- Whoever waits to join is no attachment yet, and a collaborator that was let in has its place;
input that is waited for is not empty. -/
def Waits (r : ShellRuntime T Parser) : Control T → Prop
  | .entering t _ _ _ => r.attachments t = none
  | .attaching t collaborative _ _ =>
      r.attachments t = none
        ∧ (collaborative = true → r.collaborators.length < maxCollaboratorsPerShell)
  | .typing _ bytes => bytes ≠ []
  | _ => True

/-- The senders that have not been dropped are the controller's and the collaborators'. -/
structure Inv (r past : ShellRuntime T Parser) : Prop where
  grows : Grows past r
  terminal : r.terminal = replay vt start r.history
  member : ∀ c t, t ∈ r.tokens c → ∃ a, r.attachments t = some a ∧ a.collaborative = c
    ∧ a.left = none
  staying : ∀ t a, r.attachments t = some a → a.left = none → t ∈ r.tokens a.collaborative
  located : ∀ t a, r.attachments t = some a → r.Located vt reconstruction start a
  waits : ∀ k, r.control = some k → r.Waits k
  limit : r.collaborators.length ≤ maxCollaboratorsPerShell

/-- The terminal, the reader and the feeds are the same. -/
structure Still (r r' : ShellRuntime T Parser) : Prop where
  terminal : r'.terminal = r.terminal
  history : r'.history = r.history
  sends : r'.sends = r.sends
  fanouts : r'.fanouts = r.fanouts
  reader : r'.reader = r.reader

variable {vt reconstruction start} {past r r' : ShellRuntime T Parser} {a a' : Attachment} {t : T}
    {c : Bool}

theorem Still.handedOut (h : Still r r') (c : Bool) : r'.handedOut c = r.handedOut c := by
  rw [ShellRuntime.handedOut, ShellRuntime.handedOut, h.sends, h.fanouts]

theorem Later.refl (n : Nat) (a : Attachment) : Later n a a := ⟨rfl, rfl, rfl, fun _ h => .inl h⟩

theorem Later.trans {a'' : Attachment} {n n' : Nat} (hle : n ≤ n') (h : Later n a a')
    (h' : Later n' a' a'') :
    Later n a a'' where
  collaborative := h'.collaborative.trans h.collaborative
  cut := h'.cut.trans h.cut
  since := h'.since.trans h.since
  left m hm := by
    obtain hm | hm := h'.left m hm
    · exact h.left m hm
    · exact .inr (Nat.le_trans hle hm)

theorem Grows.refl (r : ShellRuntime T Parser) : Grows r r :=
  ⟨List.prefix_refl _, fun _ => List.prefix_refl _, fun _ a ha => ⟨a, ha, .refl _ a⟩⟩

theorem Grows.trans (h : Grows past r) (h' : Grows r r') : Grows past r' where
  history := h.history.trans h'.history
  handedOut c := (h.handedOut c).trans (h'.handedOut c)
  attachments t a ha := by
    obtain ⟨b, hb, hlater⟩ := h.attachments t a ha
    obtain ⟨c, hc, hlater'⟩ := h'.attachments t b hb
    rw [hlater.collaborative] at hlater'
    exact ⟨c, hc, .trans (h.handedOut _).length_le hlater hlater'⟩

theorem Located.still (h : r.Located vt reconstruction start a) (hs : Still r r') :
    r'.Located vt reconstruction start a :=
  ⟨by rw [hs.reader, hs.history, hs.handedOut]; exact h.aligned, by rw [hs.handedOut]; exact h.fed,
    by rw [hs.history]; exact h.drawn⟩

/-- A thread of the attachment has done something. -/
theorem Located.kept (h : r.Located vt reconstruction start a) (hkept : a.Kept a')
    (hfed : a'.Fed (r.handedOut a.collaborative)) : r.Located vt reconstruction start a' := by
  refine ⟨?_, ?_, ?_⟩
  · rw [hkept.collaborative, hkept.cut, hkept.since]
    exact h.aligned
  · rw [hkept.collaborative]
    exact hfed
  · rw [hkept.reconstruction, hkept.cut]
    exact h.drawn

theorem length_tokens : (r.tokens true).length = r.collaborators.length := by
  rw [tokens, if_pos rfl, List.length_map]

theorem Waits.mono {k : Control T} (h : r.Waits k) (hnone : ∀ t, r.attachments t = none →
    r'.attachments t = none)
    (hle : r'.collaborators.length ≤ r.collaborators.length) : r'.Waits k := by
  cases k with
  | entering t collaborative takeover size => exact hnone t h
  | attaching t collaborative takeover resize =>
      exact ⟨hnone t h.1, fun hc => Nat.lt_of_le_of_lt hle (h.2 hc)⟩
  | typing t bytes => exact h
  | _ => trivial

/-- Nothing that the invariant speaks about has changed but the reader, the lock and who waits for
what. -/
theorem Inv.transfer (h : r.Inv vt reconstruction start past) (hterminal : r'.terminal = r.terminal)
    (hhistory : r'.history = r.history) (hsends : r'.sends = r.sends)
    (hfanouts : r'.fanouts = r.fanouts)
    (hattachments : r'.attachments = r.attachments) (htokens : ∀ c, r'.tokens c = r.tokens c)
    (hpending : ∀ c p, r'.reader.pending c = some p → r.reader.pending c = some p)
    (hwaits : ∀ k, r'.control = some k → r.Waits k) :
    r'.Inv vt reconstruction start past := by
  have hhanded (c : Bool) : r'.handedOut c = r.handedOut c := by
    rw [handedOut, handedOut, hsends, hfanouts]
  have hlength : r'.collaborators.length = r.collaborators.length := by
    simpa [tokens] using congrArg List.length (htokens true)
  have hgrows : Grows r r' := by
    refine ⟨hhistory ▸ List.prefix_refl _, fun c => hhanded c ▸ List.prefix_refl _,
      fun u b hb => ?_⟩
    rw [hattachments]
    exact ⟨b, hb, .refl _ b⟩
  refine ⟨h.grows.trans hgrows, by rw [hterminal, hhistory]; exact h.terminal, fun c u hu => ?_,
    fun u b hb hleft => ?_, fun u b hb => ?_, fun k hk => ?_, hlength ▸ h.limit⟩
  · rw [htokens] at hu
    rw [hattachments]
    exact h.member c u hu
  · rw [hattachments] at hb
    rw [htokens]
    exact h.staying u b hb hleft
  · rw [hattachments] at hb
    obtain ⟨haligned, hfed, hdrawn⟩ := h.located u b hb
    refine ⟨?_, (hhanded _).symm ▸ hfed, by rw [hhistory]; exact hdrawn⟩
    rw [hhistory, hhanded]
    exact haligned.of_pending (hpending _)
  · exact (hwaits k hk).mono (fun u hu => by rw [hattachments]; exact hu) (Nat.le_of_eq hlength)

theorem of_accepts (h : r.accepts t = true) (ha : r.attachments t = some a) :
    a.worker.alive = true ∧ a.hasRoom = true := by
  rw [accepts, ha, Option.any_some, Bool.and_eq_true] at h
  exact h

/-- The terminal processes a call, and the reader moves on. -/
theorem Inv.call (h : r.Inv vt reconstruction start past) (call : TerminalState.Call)
    (hterminal : r'.terminal = draw vt r.terminal call)
    (hhistory : r'.history = r.history ++ [call])
    (hsends : r'.sends = r.sends) (hfanouts : r'.fanouts = r.fanouts)
    (hattachments : r'.attachments = r.attachments)
    (htokens : ∀ c, r'.tokens c = r.tokens c)
    (hpending : ∀ c p, r'.reader.pending c = some p → ∃ q, r.reader.pending c = some q
      ∧ p = q ++ chunks [call])
    (hwaits : ∀ k, r'.control = some k → r.Waits k) :
    r'.Inv vt reconstruction start past := by
  have hhanded (c : Bool) : r'.handedOut c = r.handedOut c := by
    rw [handedOut, handedOut, hsends, hfanouts]
  have hlength : r'.collaborators.length = r.collaborators.length := by
    rw [← length_tokens, ← length_tokens, htokens]
  have hgrows : Grows r r' := by
    refine ⟨hhistory ▸ List.prefix_append _ _, fun c => hhanded c ▸ List.prefix_refl _,
      fun u b hb => ?_⟩
    rw [hattachments]
    exact ⟨b, hb, .refl _ b⟩
  refine ⟨h.grows.trans hgrows, by rw [hterminal, hhistory, replay_append, h.terminal],
    fun c u hu => ?_,
    fun u b hb hleft => ?_, fun u b hb => ?_, fun k hk => ?_, hlength ▸ h.limit⟩
  · rw [htokens] at hu
    rw [hattachments]
    exact h.member c u hu
  · rw [hattachments] at hb
    rw [htokens]
    exact h.staying u b hb hleft
  · rw [hattachments] at hb
    obtain ⟨haligned, hfed, hdrawn⟩ := h.located u b hb
    refine ⟨?_, (hhanded _).symm ▸ hfed, ?_⟩
    · rw [hhistory, hhanded]
      exact haligned.call call (hpending _)
    · rw [hhistory, List.take_append_of_le_length haligned.cut_le]
      exact hdrawn
  · exact (hwaits k hk).mono (fun u hu => by rw [hattachments]; exact hu) (Nat.le_of_eq hlength)

/-- The reader moves on, and the attachments wait for the same. -/
theorem Inv.reader (h : r.Inv vt reconstruction start past) {reader : Reader}
    (hpending : ∀ c p, reader.pending c = some p → r.reader.pending c = some p) :
    ({ r with reader := reader } : ShellRuntime T Parser).Inv vt reconstruction start past :=
  h.transfer rfl rfl rfl rfl rfl (fun _ => rfl) hpending h.waits

theorem Inv.control (h : r.Inv vt reconstruction start past) {control : Option (Control T)}
    (hwaits : ∀ k, control = some k → r.Waits k) :
    ({ r with control := control } : ShellRuntime T Parser).Inv vt reconstruction start past :=
  h.transfer rfl rfl rfl rfl rfl (fun _ => rfl) (fun _ _ hp => hp) hwaits

/-- The terminal is resized, while nothing is handed out. -/
theorem Inv.resizeTerminal (h : r.Inv vt reconstruction start past) (size : PtySize) :
    (r.resizeTerminal vt size).Inv vt reconstruction start past :=
  h.call (.resize size.rows.toNat size.cols.toNat) rfl rfl rfl rfl rfl (fun _ => rfl)
    (fun _ p hp => ⟨p, hp, (List.append_nil p).symm⟩) h.waits

theorem Inv.readPty (h : r.Inv vt reconstruction start past) {bytes : List UInt8}
    (hr : r.readPty vt bytes = some r') :
    r'.Inv vt reconstruction start past := by
  unfold ShellRuntime.readPty at hr
  split at hr
  next hguard =>
    obtain ⟨hreader, -⟩ := hguard
    split at hr
    next =>
      obtain rfl := Option.some.inj hr
      refine h.call (.process bytes) rfl rfl rfl rfl rfl (fun _ => rfl) (fun c p hp => ?_) h.waits
      simp [Reader.pending] at hp
    next =>
      obtain rfl := Option.some.inj hr
      refine h.call (.process bytes) rfl rfl rfl rfl rfl (fun _ => rfl) (fun c p hp => ?_) h.waits
      obtain rfl : [bytes] = p := Option.some.inj hp
      exact ⟨[], by rw [hreader]; rfl, rfl⟩
  next => cases hr

theorem Inv.lockController (h : r.Inv vt reconstruction start past)
    (hr : r.lockController = some r') :
    r'.Inv vt reconstruction start past := by
  unfold ShellRuntime.lockController at hr
  split at hr
  next bytes hreader =>
    obtain rfl := Option.some.inj hr
    exact h.reader fun c p hp => by rw [hreader]; exact hp
  next => cases hr

theorem Inv.leaveReader (h : r.Inv vt reconstruction start past) {reader : Reader}
    (hreader : ∀ c, reader.pending c = some []) (hr : r.leaveReader reader = some r') :
    r'.Inv vt reconstruction start past := by
  unfold ShellRuntime.leaveReader at hr
  split at hr
  next hreading =>
    obtain rfl := Option.some.inj hr
    refine h.reader fun c p hp => ?_
    rw [hreading]
    exact (hreader c).symm.trans hp
  next => cases hr

/-- The lock is given back. -/
theorem Inv.release (h : r.Inv vt reconstruction start past) :
    ({ r with control := none } : ShellRuntime T Parser).Inv vt reconstruction start past :=
  h.control fun k hk => by cases hk

theorem Inv.attach (h : r.Inv vt reconstruction start past) {collaborative takeover : Bool}
    {size : PtySize}
    (hr : r.attach t collaborative takeover size = some r') :
      r'.Inv vt reconstruction start past := by
  unfold ShellRuntime.attach at hr
  split at hr
  next => cases hr
  next hguard =>
    obtain rfl := Option.some.inj hr
    refine h.control fun k hk => ?_
    obtain rfl := Option.some.inj hk
    show r.attachments t = none
    rw [not_or, Option.not_isSome_iff_eq_none] at hguard
    exact hguard.2

theorem Inv.checkAttach (h : r.Inv vt reconstruction start past) {resized : Bool}
    (hr : r.checkAttach resized = some r') : r'.Inv vt reconstruction start past := by
  unfold ShellRuntime.checkAttach at hr
  split at hr
  next t takeover size hcontrol =>
    have hnone : r.attachments t = none := h.waits _ hcontrol
    split at hr
    next =>
      obtain rfl := Option.some.inj hr
      exact h.release
    next hlimit =>
      obtain rfl := Option.some.inj hr
      refine h.control fun k hk => ?_
      obtain rfl := Option.some.inj hk
      exact ⟨hnone, fun _ => Nat.lt_of_not_le hlimit⟩
  next t takeover size hcontrol =>
    have hnone : r.attachments t = none := h.waits _ hcontrol
    split at hr
    next => cases hr
    next =>
      split at hr
      next =>
        obtain rfl := Option.some.inj hr
        exact h.release
      next =>
        split at hr
        next =>
          obtain rfl := Option.some.inj hr
          exact h.release
        next =>
          obtain rfl := Option.some.inj hr
          refine h.transfer rfl rfl rfl rfl rfl (fun _ => rfl) (fun _ _ hp => hp) fun k hk => ?_
          obtain rfl := Option.some.inj hk
          exact ⟨hnone, fun hc => by cases hc⟩
  next => cases hr

/-- The terminal is drawn anew for an attachment, and for a `Resize` frame. -/
theorem Inv.drawResize (h : r.Inv vt reconstruction start past) (hr : r.drawResize vt = some r') :
    r'.Inv vt reconstruction start past := by
  unfold ShellRuntime.drawResize at hr
  split at hr
  next t collaborative takeover size hcontrol =>
    split at hr
    next => cases hr
    next =>
      obtain rfl := Option.some.inj hr
      refine (h.resizeTerminal size).control fun k hk => ?_
      obtain rfl := Option.some.inj hk
      exact h.waits (.attaching t collaborative takeover (some size)) hcontrol
  next t size hcontrol =>
    split at hr
    next => cases hr
    next =>
      obtain rfl := Option.some.inj hr
      refine (h.resizeTerminal size).control fun k hk => ?_
      obtain rfl := Option.some.inj hk
      trivial
  next => cases hr

theorem terminalFree_pending (h : r.terminalFree = true) {p : List (List UInt8)}
    (hp : r.reader.pending c = some p) : p = [] := by
  unfold terminalFree at h
  cases hreader : r.reader with
  | reading => simpa [hreader, Reader.pending] using hp.symm
  | stopped => simpa [hreader, Reader.pending] using hp.symm
  | drawn bytes => simp [hreader] at h
  | sending bytes => simp [hreader] at h
  | fanning bytes => simp [hreader] at h
  | finishing lost | clearing lost | ended lost =>
      rw [hreader] at hp
      simp only [Reader.pending] at hp
      split at hp
      next => exact (Option.some.inj hp).symm
      next => cases hp

theorem Fresh.inv (h : r.Fresh) : r.Inv vt reconstruction r.terminal r where
  grows := .refl r
  terminal := by rw [h.history]; rfl
  member c t ht := by
    cases c <;> simp [tokens, h.controller, h.collaborators] at ht
  staying t a ha := by
    rw [h.attachments] at ha
    cases ha
  located t a ha := by
    rw [h.attachments] at ha
    cases ha
  waits k hk := by
    rw [h.control] at hk
    cases hk
  limit := by simp [h.collaborators]

variable [DecidableEq T]

theorem only_eq_some {f : Attachment → Option Attachment} (h : r.only t f = some r') :
    ∃ a a', r.attachments t = some a ∧ f a = some a' ∧
      r' = { r with attachments := fun u => if u = t then some a' else r.attachments u } := by
  unfold only at h
  obtain ⟨a', ha', rfl⟩ := Option.map_eq_some_iff.mp h
  obtain ⟨a, ha, hf⟩ := Option.bind_eq_some_iff.mp ha'
  exact ⟨a, a', ha, hf, rfl⟩

/-- A thread of one attachment takes a step. -/
theorem Inv.only (h : r.Inv vt reconstruction start past) {f : Attachment → Option Attachment}
    (hf : ∀ a a', r.attachments t = some a → a.Fed (r.handedOut a.collaborative) → f a = some a' →
      a.Kept a' ∧ a'.Fed (r.handedOut a.collaborative))
    (hr : r.only t f = some r') : r'.Inv vt reconstruction start past := by
  obtain ⟨a, a', ha, haf, rfl⟩ := only_eq_some hr
  obtain ⟨hkept, hfed⟩ := hf a a' ha (h.located t a ha).fed haf
  have hgrows : Grows r
      { r with attachments := fun u => if u = t then some a' else r.attachments u } := by
    refine ⟨List.prefix_refl _, fun _ => List.prefix_refl _, fun u b hb => ?_⟩
    by_cases hut : u = t
    · subst hut
      obtain rfl : a = b := Option.some.inj (ha.symm.trans hb)
      exact ⟨a', if_pos rfl, hkept.collaborative, hkept.cut, hkept.since, fun m hm =>
        .inl (hkept.left ▸ hm)⟩
    · exact ⟨b, (if_neg hut).trans hb, .refl _ b⟩
  refine ⟨h.grows.trans hgrows, h.terminal, fun c u hu => ?_, fun u b hb hleft => ?_,
    fun u b hb => ?_,
    fun k hk => ?_, h.limit⟩
  · obtain ⟨b, hb, hc, hleft⟩ := h.member c u hu
    by_cases hut : u = t
    · subst hut
      obtain rfl : a = b := Option.some.inj (ha.symm.trans hb)
      exact ⟨a', if_pos rfl, hkept.collaborative.trans hc, hkept.left.trans hleft⟩
    · exact ⟨b, (if_neg hut).trans hb, hc, hleft⟩
  · by_cases hut : u = t
    · subst hut
      obtain rfl : a' = b := Option.some.inj ((if_pos rfl).symm.trans hb)
      rw [hkept.collaborative]
      exact h.staying u a ha (hkept.left.symm.trans hleft)
    · exact h.staying u b ((if_neg hut).symm.trans hb) hleft
  · by_cases hut : u = t
    · subst hut
      obtain rfl : a' = b := Option.some.inj ((if_pos rfl).symm.trans hb)
      exact ((h.located u a ha).kept hkept hfed).still ⟨rfl, rfl, rfl, rfl, rfl⟩
    · exact (h.located u b ((if_neg hut).symm.trans hb)).still ⟨rfl, rfl, rfl, rfl, rfl⟩
  · refine (h.waits k hk).mono (fun u hu => ?_) (Nat.le_refl _)
    have hut : u ≠ t := by
      rintro rfl
      cases hu.symm.trans ha
    exact (if_neg hut).trans hu

/-- One attachment is changed by another thread. -/
theorem Inv.modify_one (h : r.Inv vt reconstruction start past) {f : Attachment → Attachment}
    (hf : ∀ a, r.attachments t = some a → a.Fed (r.handedOut a.collaborative) →
      a.Kept (f a) ∧ (f a).Fed (r.handedOut a.collaborative)) :
    (r.modify [t] f).Inv vt reconstruction start past := by
  cases ha : r.attachments t with
  | none =>
      have hsame : r.modify [t] f = r := by
        unfold modify
        congr 1
        funext u
        by_cases hut : u = t
        · simp [hut, ha]
        · simp [hut]
      exact hsame.symm ▸ h
  | some a =>
      have hr : r.only t (fun a => some (f a)) = some (r.modify [t] f) := by
        unfold ShellRuntime.only modify
        rw [ha, Option.bind_some, Option.map_some]
        congr 2
        funext u
        by_cases hut : u = t
        · simp [hut, ha]
        · simp [hut]
      refine h.only (fun a a' ha hfed haf => ?_) hr
      obtain rfl := Option.some.inj haf
      exact hf a ha hfed

/-! ### Dropping senders -/

theorem leave_attachments (gone : List T) (u : T) : (r.leave gone).attachments u =
    if u ∈ gone then (r.attachments u).map fun a =>
      { a with left := some (r.handedOut a.collaborative).length }
    else r.attachments u := rfl

/-- The senders of some attachments of one kind are dropped. -/
theorem Inv.drop (h : r.Inv vt reconstruction start past) (c : Bool) (gone : T → Bool)
    (hs : Still r r')
    (hcontrol : r'.control = r.control)
    (hattachments : r'.attachments = (r.leave ((r.tokens c).filter gone)).attachments)
    (htokens : r'.tokens c = (r.tokens c).filter fun t => !gone t)
    (hother : r'.tokens (!c) = r.tokens (!c)) :
    r'.Inv vt reconstruction start past := by
  -- A token is held once, so one whose sender is dropped is held no more.
  have hkind {u : T} {b : Attachment} (hu : u ∈ r.tokens c) (hb : r.attachments u = some b) :
      b.collaborative = c ∧ b.left = none := by
    obtain ⟨b', hb', hkind, hleft⟩ := h.member c u hu
    obtain rfl := Option.some.inj (hb.symm.trans hb')
    exact ⟨hkind, hleft⟩
  have hlength : r'.collaborators.length ≤ r.collaborators.length := by
    rw [← length_tokens, ← length_tokens]
    cases c with
    | true =>
        rw [htokens]
        exact List.length_filter_le _ _
    | false => exact Nat.le_of_eq (congrArg List.length hother)
  have hgrows : Grows r r' := by
    refine ⟨hs.history ▸ List.prefix_refl _, fun d => hs.handedOut d ▸ List.prefix_refl _,
      fun u b hb => ?_⟩
    rw [hattachments, leave_attachments, hb]
    split
    next => exact ⟨_, rfl, rfl, rfl, rfl, fun m hm => .inr (Nat.le_of_eq (Option.some.inj hm))⟩
    next => exact ⟨b, rfl, .refl _ b⟩
  refine ⟨h.grows.trans hgrows, by rw [hs.terminal, hs.history]; exact h.terminal, fun d u hu => ?_,
    fun u b hb hleft => ?_, fun u b hb => ?_, fun k hk => ?_, Nat.le_trans hlength h.limit⟩
  · have hu' : u ∈ r.tokens d ∧ ¬(u ∈ (r.tokens c).filter gone) := by
      by_cases hd : d = c
      · subst hd
        rw [htokens] at hu
        simp only [List.mem_filter] at hu ⊢
        exact ⟨hu.1, fun hgone => by simp [hgone.2] at hu⟩
      · obtain rfl : d = !c := by cases c <;> cases d <;> simp at hd ⊢
        rw [hother] at hu
        refine ⟨hu, fun hgone => ?_⟩
        obtain ⟨b, hb, hkind', -⟩ := h.member _ u hu
        have := (hkind (List.mem_filter.mp hgone).1 hb).1
        rw [hkind'] at this
        cases c <;> cases this
    obtain ⟨b, hb, hkind', hleft⟩ := h.member d u hu'.1
    refine ⟨b, ?_, hkind', hleft⟩
    rw [hattachments, leave_attachments, if_neg hu'.2]
    exact hb
  · rw [hattachments, leave_attachments] at hb
    split at hb
    next =>
      obtain ⟨b', -, rfl⟩ := Option.map_eq_some_iff.mp hb
      cases hleft
    next hstays =>
      have hu := h.staying u b hb hleft
      by_cases hc : b.collaborative = c
      · rw [hc] at hu ⊢
        rw [htokens]
        refine List.mem_filter.mpr ⟨hu, ?_⟩
        by_contra hgone
        exact hstays (List.mem_filter.mpr ⟨hu, by simpa using hgone⟩)
      · rw [show b.collaborative = !c from by cases c <;> cases hb' : b.collaborative <;> simp_all]
          at hu ⊢
        rw [hother]
        exact hu
  · rw [hattachments, leave_attachments] at hb
    split at hb
    next hgone =>
      obtain ⟨b', hb', rfl⟩ := Option.map_eq_some_iff.mp hb
      obtain ⟨haligned, hfed, hdrawn⟩ := h.located u b' hb'
      have hfed' := hfed.leave (hkind (List.mem_filter.mp hgone).1 hb').2
      exact Located.still ⟨haligned, hfed', hdrawn⟩ hs
    next => exact (h.located u b hb).still hs
  · rw [hcontrol] at hk
    refine (h.waits k hk).mono (fun u hu => ?_) hlength
    rw [hattachments, leave_attachments, hu]
    split <;> rfl

theorem Inv.dropController (h : r.Inv vt reconstruction start past) :
    r.dropController.Inv vt reconstruction start past := by
  refine h.drop false (fun _ => true) ⟨rfl, rfl, rfl, rfl, rfl⟩ rfl ?_ ?_ rfl
  · rw [List.filter_eq_self.mpr fun _ _ => rfl]
    rfl
  · simp [tokens, ShellRuntime.dropController]

theorem Inv.dropCollaborators (h : r.Inv vt reconstruction start past) (named : T → Bool) :
    (r.dropCollaborators named).Inv vt reconstruction start past := by
  refine h.drop true named ⟨rfl, rfl, rfl, rfl, rfl⟩ rfl rfl ?_ rfl
  simp only [tokens, ShellRuntime.dropCollaborators, if_pos, List.filter_map]
  rfl

theorem Inv.releaseController (h : r.Inv vt reconstruction start past) (t : T) :
    (r.releaseController t).Inv vt reconstruction start past := by
  unfold ShellRuntime.releaseController
  split
  next => exact h.dropController
  next => exact h.dropCollaborators _

/-! ### Handing out -/

theorem modify_attachments (tokens : List T) (f : Attachment → Attachment) (u : T) :
    (r.modify tokens f).attachments u = if u ∈ tokens then (r.attachments u).map f
      else r.attachments u := rfl

/-- An output is handed out to the attachments of one kind, which all have room for it. -/
theorem Inv.hand (h : r.Inv vt reconstruction start past) (c : Bool) (output : ControllerOutput)
    (houtput : output ≠ .reconnect)
    (hready : ∀ t ∈ r.tokens c, r.accepts t = true) (hterminal : r'.terminal = r.terminal)
    (hhistory : r'.history = r.history)
    (hattachments : r'.attachments = (r.modify (r.tokens c) (·.push output)).attachments)
    (htokens : ∀ d, r'.tokens d = r.tokens d) (hfeed : r'.handedOut c = r.handedOut c ++ [output])
    (hother : r'.handedOut (!c) = r.handedOut (!c))
    (haligned : ∀ cut since, Aligned r.reader r.history (r.handedOut c) c cut since →
      Aligned r'.reader r.history (r.handedOut c ++ [output]) c cut since)
    (hpending : ∀ p, r'.reader.pending (!c) = some p → r.reader.pending (!c) = some p)
    (hcontrol : ∀ k, r'.control = some k → r.control = some k) :
    r'.Inv vt reconstruction start past := by
  have hlength : r'.collaborators.length = r.collaborators.length := by
    rw [← length_tokens, ← length_tokens, htokens]
  -- Who is handed the output is of this kind, and has not left.
  have hkind {u : T} {b : Attachment} (hu : u ∈ r.tokens c) (hb : r.attachments u = some b) :
      b.collaborative = c ∧ b.left = none := by
    obtain ⟨b', hb', hkind, hleft⟩ := h.member c u hu
    obtain rfl := Option.some.inj (hb.symm.trans hb')
    exact ⟨hkind, hleft⟩
  have hgrows : Grows r r' := by
    refine ⟨hhistory ▸ List.prefix_refl _, fun d => ?_, fun u b hb => ?_⟩
    -- The feed of this kind grows by the output, and that of the other kind stays.
    · by_cases hd : d = c
      · rw [hd, hfeed]
        exact List.prefix_append _ _
      · obtain rfl : d = !c := by cases c <;> cases d <;> simp at hd ⊢
        exact hother ▸ List.prefix_refl _
    · rw [hattachments, modify_attachments, hb]
      split
      next => exact ⟨_, rfl, rfl, rfl, rfl, fun m hm => .inl hm⟩
      next => exact ⟨b, rfl, .refl _ b⟩
  refine ⟨h.grows.trans hgrows, by rw [hterminal, hhistory]; exact h.terminal, fun d u hu => ?_,
    fun u b hb hleft => ?_, fun u b hb => ?_, fun k hk => ?_, hlength ▸ h.limit⟩
  -- Handing out lets nobody leave, and nobody in.
  · rw [htokens] at hu
    obtain ⟨b, hb, hd, hleft⟩ := h.member d u hu
    rw [hattachments, modify_attachments, hb]
    split
    next => exact ⟨b.push output, rfl, hd, hleft⟩
    next => exact ⟨b, rfl, hd, hleft⟩
  · rw [hattachments, modify_attachments] at hb
    rw [htokens]
    split at hb
    next =>
      obtain ⟨b', hb', rfl⟩ := Option.map_eq_some_iff.mp hb
      exact h.staying u b' hb' hleft
    next => exact h.staying u b hb hleft
  · rw [hattachments, modify_attachments] at hb
    split at hb
    next hu =>
      -- It was handed the output.
      obtain ⟨b', hb', rfl⟩ := Option.map_eq_some_iff.mp hb
      obtain ⟨rfl, hleft⟩ := hkind hu hb'
      obtain ⟨halign, hfed, hdrawn⟩ := h.located u b' hb'
      obtain ⟨halive, hroom⟩ := of_accepts (hready u hu) hb'
      refine ⟨?_, ?_, by rw [hhistory]; exact hdrawn⟩
      · rw [hhistory]
        exact hfeed.symm ▸ haligned _ _ halign
      · exact hfeed.symm ▸ hfed.push hleft halign.since_le halive hroom houtput
    next hu =>
      obtain ⟨halign, hfed, hdrawn⟩ := h.located u b hb
      -- It has left already, or it is of the other kind.
      by_cases hc : b.collaborative = c
      · subst hc
        have hleft : b.left ≠ none := fun hleft => hu (h.staying u b hb hleft)
        obtain ⟨m, hm⟩ := Option.ne_none_iff_exists'.mp hleft
        exact ⟨by rw [hhistory, hfeed]; exact haligned _ _ halign, by
          rw [hfeed]; exact hfed.append hm _,
          by rw [hhistory]; exact hdrawn⟩
      · have hc' : b.collaborative = !c := by cases c <;> cases hb' : b.collaborative <;> simp_all
        rw [hc'] at halign hfed
        refine ⟨?_, ?_, by rw [hhistory]; exact hdrawn⟩
        · rw [hhistory, hc', hother]
          exact halign.of_pending hpending
        · rw [hc', hother]
          exact hfed
  -- Who waits for the control is waiting still.
  · refine (h.waits k (hcontrol k hk)).mono (fun u hu => ?_) (Nat.le_of_eq hlength)
    rw [hattachments, modify_attachments, hu]
    split <;> rfl

/-- `fanout_output` for the controller, by the reader. -/
theorem Inv.sendController (h : r.Inv vt reconstruction start past)
    (hr : r.sendController = some r') :
    r'.Inv vt reconstruction start past := by
  unfold ShellRuntime.sendController at hr
  split at hr
  next bytes hreader =>
    obtain ⟨s, hs, rfl⟩ := Option.map_eq_some_iff.mp hr
    -- The controller has room, or there is none any more.
    obtain ⟨q, hq, hqreader, hready, rfl⟩ : ∃ q : ShellRuntime T Parser,
        q.Inv vt reconstruction start past ∧
        q.reader = r.reader ∧ (∀ t ∈ q.tokens false, q.accepts t = true) ∧
        s = { q.modify (q.tokens false) (·.push (.data bytes)) with sends := q.sends ++
          [.data bytes] } := by
      unfold fanoutController at hs
      dsimp only at hs
      split at hs
      next hnone =>
        refine ⟨r, h, rfl, fun t ht => ?_, (Option.some.inj hs).symm⟩
        simp [tokens, hnone] at ht
      next controller hcontroller =>
        split at hs
        next =>
          split at hs
          next haccepts =>
            refine ⟨r, h, rfl, fun t ht => ?_, (Option.some.inj hs).symm⟩
            obtain rfl : t = controller.token := by simpa [tokens, hcontroller] using ht
            exact haccepts
          next => cases hs
        next =>
          refine ⟨r.dropController, h.dropController, rfl, fun t ht => ?_,
            (Option.some.inj hs).symm⟩
          simp [tokens, ShellRuntime.dropController] at ht
    refine hq.hand false (.data bytes) (by simp) hready rfl rfl rfl (fun d => rfl) rfl rfl
      (fun cut since ha => ?_) (fun p hp => ?_) (fun k hk => hk)
    · exact ha.hand (p := [bytes]) (q := []) (by rw [hqreader, hreader]; rfl) (by simp) rfl
    · rw [hqreader, hreader]
      exact hp
  next => cases hr

/-- After the ones that have no room have been dropped, every collaborator has room. -/
theorem accepts_after_drop : ∀ t ∈ (r.dropCollaborators fun t => !r.accepts t).tokens true,
    (r.dropCollaborators fun t => !r.accepts t).accepts t = true := by
  intro t ht
  have hmem : t ∈ r.tokens true ∧ r.accepts t = true := by
    simp only [tokens, if_pos, ShellRuntime.dropCollaborators, List.mem_map,
      List.mem_filter] at ht ⊢
    obtain ⟨controller, ⟨hc, haccepts⟩, rfl⟩ := ht
    exact ⟨⟨controller, hc, rfl⟩, by simpa using haccepts⟩
  have hsame : (r.dropCollaborators fun t => !r.accepts t).attachments t = r.attachments t := by
    change (r.leave _).attachments t = _
    rw [leave_attachments, if_neg]
    simp [hmem.2]
  rw [accepts, hsame]
  exact hmem.2

/-- `fanout_output` for the collaborators, by the reader. -/
theorem Inv.fanCollaborators (h : r.Inv vt reconstruction start past)
    (hr : r.fanCollaborators = some r') :
    r'.Inv vt reconstruction start past := by
  unfold ShellRuntime.fanCollaborators at hr
  split at hr
  next bytes hreader =>
    obtain rfl := Option.some.inj hr
    refine (h.dropCollaborators _).hand true (.data bytes) (by simp) accepts_after_drop rfl rfl rfl
      (fun d => rfl) rfl rfl (fun cut since ha => ?_) (fun p hp => ?_) (fun k hk => hk)
    · refine ha.hand (p := [bytes]) (q := []) ?_ (by simp) rfl
      change r.reader.pending true = _
      rw [hreader]
      rfl
    · change r.reader.pending false = some p
      rw [hreader]
      exact hp
  next => cases hr

/-- `fanout_collaborator_resize`. -/
theorem Inv.fanResize (h : r.Inv vt reconstruction start past) (hr : r.fanResize = some r') :
    r'.Inv vt reconstruction start past := by
  unfold ShellRuntime.fanResize at hr
  split at hr
  next size hcontrol =>
    obtain rfl := Option.some.inj hr
    exact (h.dropCollaborators _).hand true (.resize size) (by simp) accepts_after_drop rfl rfl rfl
      (fun d => rfl) rfl rfl (fun cut since ha => ha.handSize size) (fun p hp => hp)
        (fun k hk => by cases hk)
  next => cases hr

/-! ### The reader -/

theorem Inv.takeController (h : r.Inv vt reconstruction start past)
    (hr : r.takeController = some r') :
    r'.Inv vt reconstruction start past := by
  unfold ShellRuntime.takeController at hr
  split at hr
  next lost hreader =>
    obtain rfl := Option.some.inj hr
    refine h.dropController.reader fun c p hp => ?_
    change r.reader.pending c = some p
    rw [hreader]
    exact hp
  next => cases hr

theorem Inv.clearCollaborators (h : r.Inv vt reconstruction start past)
    (hr : r.clearCollaborators = some r') :
    r'.Inv vt reconstruction start past := by
  unfold ShellRuntime.clearCollaborators at hr
  split at hr
  next lost hreader =>
    obtain rfl := Option.some.inj hr
    refine (h.dropCollaborators _).reader fun c p hp => ?_
    change r.reader.pending c = some p
    rw [hreader]
    exact hp
  next => cases hr

/-! ### Attaching -/

theorem Inv.displaced (h : r.Inv vt reconstruction start past) (collaborative takeover : Bool) :
    (r.displaced collaborative takeover).Inv vt reconstruction start past := by
  unfold ShellRuntime.displaced
  split
  next => exact h
  next =>
    split
    next => exact h.dropController.dropCollaborators _
    next => exact h.dropController

/-- A participant joins that nobody is in the way of. -/
theorem Inv.installed (h : r.Inv vt reconstruction start past) (hfree : r.terminalFree = true)
    (hnone : r.attachments t = none) (hlimit : c = true →
      r.collaborators.length < maxCollaboratorsPerShell)
    (halone : c = false → r.controller = none) :
    ({ r.installed reconstruction t c with control := none } : ShellRuntime T Parser).Inv vt
      reconstruction start
      past := by
  have htokens (d : Bool) (u : T) : u ∈ ({ r.installed reconstruction t c with control := none } :
      ShellRuntime T Parser).tokens d ↔ u ∈ r.tokens d ∨ u = t ∧ d = c := by
    cases c with
    | false => cases d <;> simp [tokens, ShellRuntime.installed, halone rfl]
    | true =>
        cases d <;> simp [tokens, ShellRuntime.installed]
  have hne {d : Bool} {u : T} (hu : u ∈ r.tokens d) : u ≠ t := by
    rintro rfl
    obtain ⟨b, hb, -⟩ := h.member d u hu
    cases hnone.symm.trans hb
  have hgrows : Grows r { r.installed reconstruction t c with control := none } := by
    refine ⟨List.prefix_refl _, fun _ => List.prefix_refl _, fun u b hb => ⟨b, (if_neg ?_).trans hb,
      .refl _ b⟩⟩
    rintro rfl
    cases hnone.symm.trans hb
  refine ⟨h.grows.trans hgrows, h.terminal, fun d u hu => ?_, fun u b hb hleft => ?_,
    fun u b hb => ?_,
    fun k hk => (by cases hk), ?_⟩
  · obtain hu | ⟨rfl, rfl⟩ := (htokens d u).mp hu
    · obtain ⟨b, hb, hd, hleft⟩ := h.member d u hu
      exact ⟨b, (if_neg (hne hu)).trans hb, hd, hleft⟩
    · exact ⟨_, if_pos rfl, rfl, rfl⟩
  · refine (htokens _ u).mpr ?_
    by_cases hut : u = t
    · subst hut
      obtain rfl := Option.some.inj ((if_pos rfl).symm.trans hb)
      exact .inr ⟨rfl, rfl⟩
    · exact .inl (h.staying u b ((if_neg hut).symm.trans hb) hleft)
  · by_cases hut : u = t
    · subst hut
      obtain rfl := Option.some.inj ((if_pos rfl).symm.trans hb)
      refine ⟨.join fun p hp => terminalFree_pending hfree hp, ?_, ?_⟩
      · exact .of_alive rfl (fun m hm => by cases hm) (Nat.zero_le _) share_join.symm
          ⟨[], [], List.prefix_refl _, by simp, rfl, rfl, rfl⟩
      · change reconstruction r.terminal = _
        rw [h.terminal]
        exact (congrArg _ (congrArg _ List.take_length)).symm
    · exact (h.located u b ((if_neg hut).symm.trans hb)).still ⟨rfl, rfl, rfl, rfl, rfl⟩
  · cases c with
    | false => exact h.limit
    | true => simpa [ShellRuntime.installed, Nat.succ_le_iff] using hlimit rfl

theorem displaced_spec (collaborative takeover : Bool) (hnone : r.attachments t = none)
    (hlimit : collaborative = true → r.collaborators.length < maxCollaboratorsPerShell) :
    (r.displaced collaborative takeover).attachments t = none ∧
      (collaborative = true → (r.displaced collaborative takeover).collaborators.length <
        maxCollaboratorsPerShell) ∧
      (collaborative = false → (r.displaced collaborative takeover).controller = none) ∧
      (r.displaced collaborative takeover).reader = r.reader := by
  have hdropped : r.dropController.attachments t = none := by
    change (r.leave _).attachments t = none
    rw [leave_attachments, hnone]
    split <;> rfl
  unfold ShellRuntime.displaced
  split
  next hc => exact ⟨hnone, hlimit, fun hc' => by simp [hc] at hc', rfl⟩
  next hc =>
    split
    next =>
      refine ⟨?_, fun hc' => absurd hc' hc, fun _ => rfl, rfl⟩
      change (r.dropController.leave _).attachments t = none
      rw [leave_attachments, hdropped]
      split <;> rfl
    next => exact ⟨hdropped, fun hc' => absurd hc' hc, fun _ => rfl, rfl⟩

theorem Inv.join (h : r.Inv vt reconstruction start past) {answered spawned : Bool}
    (hr : r.join reconstruction answered spawned = some r') :
      r'.Inv vt reconstruction start past := by
  unfold ShellRuntime.join at hr
  split at hr
  next t collaborative takeover hcontrol =>
    obtain ⟨hnone, hlimit⟩ := h.waits _ hcontrol
    split at hr
    next => cases hr
    next hfree =>
      split at hr
      next =>
        obtain rfl := Option.some.inj hr
        exact h.release
      next =>
        dsimp only at hr
        split at hr
        next =>
          obtain rfl := Option.some.inj hr
          exact (h.displaced collaborative takeover).release
        next =>
          obtain rfl := Option.some.inj hr
          obtain ⟨hnone', hlimit', halone, hreader⟩ :=
            displaced_spec collaborative takeover hnone hlimit
          refine (h.displaced collaborative takeover).installed ?_ hnone' hlimit' halone
          have hfree' : r.terminalFree = true := by simpa using hfree
          rw [terminalFree, hreader]
          exact hfree'
  next => cases hr

/-! ### The client's frames -/

/-- A step of the loop that reads the client's frames, or of the thread's end, changes no more than
where it is. -/
theorem Inv.only_ends (h : r.Inv vt reconstruction start past) {f : Attachment → Option Attachment}
    (hf : ∀ a a', f a = some a' → a.Kept a' ∧ (∀ feed, a.Fed feed → a'.Fed feed))
    (hr : r.only t f = some r') :
    r'.Inv vt reconstruction start past :=
  h.only (fun a a' _ hfed ha => ⟨(hf a a' ha).1, (hf a a' ha).2 _ hfed⟩) hr

theorem leaveLoop_ends (a a' : Attachment) (ha : a.leaveLoop = some a') :
    a.Kept a' ∧ ∀ feed, a.Fed feed → a'.Fed feed := by
  unfold Attachment.leaveLoop at ha
  split at ha
  next =>
    obtain rfl := Option.some.inj ha
    exact ⟨⟨rfl, rfl, rfl, rfl, rfl⟩, fun feed hfed => ⟨hfed.left_le, hfed.room, hfed.channel,
      hfed.dropped,
      hfed.written⟩⟩
  next => cases ha

theorem Inv.endLoop (h : r.Inv vt reconstruction start past) (t : T) :
    (r.endLoop t).Inv vt reconstruction start past := by
  have hleft : (r.modify [t] fun a => { a with input := .leaving }).Inv vt reconstruction start
    past :=
    h.modify_one fun _ _ hfed => ⟨⟨rfl, rfl, rfl, rfl, rfl⟩, hfed.left_le, hfed.room, hfed.channel,
      hfed.dropped,
      hfed.written⟩
  exact hleft.release

theorem Inv.leaveLoop (h : r.Inv vt reconstruction start past)
    (hr : r.only t (·.leaveLoop) = some r') :
    r'.Inv vt reconstruction start past :=
  h.only_ends leaveLoop_ends hr

theorem Inv.takeControl (h : r.Inv vt reconstruction start past) {request : Request}
    (hr : r.takeControl t request = some r') : r'.Inv vt reconstruction start past := by
  unfold ShellRuntime.takeControl at hr
  split at hr
  next =>
    obtain rfl := Option.some.inj hr
    refine h.control fun k hk => ?_
    obtain rfl := Option.some.inj hk
    trivial
  next => cases hr

theorem Inv.checkFrame (h : r.Inv vt reconstruction start past) (hr : r.checkFrame = some r') :
    r'.Inv vt reconstruction start past := by
  unfold ShellRuntime.checkFrame at hr
  split at hr
  next t request hcontrol =>
    split at hr
    next => cases hr
    next =>
      split at hr
      next =>
        obtain rfl := Option.some.inj hr
        exact h.endLoop t
      next =>
        split at hr
        next =>
          obtain rfl := Option.some.inj hr
          exact h.release
        next bytes hbytes =>
          obtain rfl := Option.some.inj hr
          refine h.control fun k hk => ?_
          obtain rfl := Option.some.inj hk
          exact hbytes
        next size =>
          split at hr
          next =>
            obtain rfl := Option.some.inj hr
            exact h.release
          next =>
            split at hr
            next =>
              obtain rfl := Option.some.inj hr
              exact h.endLoop t
            next =>
              obtain rfl := Option.some.inj hr
              refine h.control fun k hk => ?_
              obtain rfl := Option.some.inj hk
              trivial
        next =>
          obtain rfl := Option.some.inj hr
          exact h.endLoop t
  next => cases hr

omit [DecidableEq T] in
theorem Inv.writePty (h : r.Inv vt reconstruction start past) {count : Nat}
    (hr : r.writePty count = some r') :
    r'.Inv vt reconstruction start past := by
  unfold ShellRuntime.writePty at hr
  split at hr
  next t bytes hcontrol =>
    split at hr
    next => cases hr
    next =>
      obtain rfl := Option.some.inj hr
      refine h.transfer rfl rfl rfl rfl rfl (fun _ => rfl) (fun _ _ hp => hp) fun k hk => ?_
      dsimp only at hk
      split at hk
      next => cases hk
      next hrest =>
        obtain rfl := Option.some.inj hk
        exact hrest
  next => cases hr

theorem Inv.failPty (h : r.Inv vt reconstruction start past) (hr : r.failPty = some r') :
    r'.Inv vt reconstruction start past := by
  unfold ShellRuntime.failPty at hr
  split at hr
  next t bytes hcontrol =>
    obtain rfl := Option.some.inj hr
    exact h.endLoop t
  next => cases hr

theorem Inv.resizeMaster (h : r.Inv vt reconstruction start past) {ok : Bool}
    (hr : r.resizeMaster ok = some r') :
    r'.Inv vt reconstruction start past := by
  unfold ShellRuntime.resizeMaster at hr
  split at hr
  next t size hcontrol =>
    split at hr
    next =>
      obtain rfl := Option.some.inj hr
      refine h.transfer rfl rfl rfl rfl rfl (fun _ => rfl) (fun _ _ hp => hp) fun k hk => ?_
      obtain rfl := Option.some.inj hk
      trivial
    next =>
      obtain rfl := Option.some.inj hr
      exact h.endLoop t
  next => cases hr

theorem Inv.acknowledge (h : r.Inv vt reconstruction start past) (hr : r.acknowledge t = some r') :
    r'.Inv vt reconstruction start past := by
  have htake : (r.takeAck t).Inv vt reconstruction start past := by
    refine h.transfer rfl rfl rfl rfl rfl (fun c => ?_) (fun _ _ hp => hp) h.waits
    cases c with
    | false =>
        cases hcontroller : r.controller with
        | none => simp [tokens, takeAck, hcontroller]
        | some controller => simp [tokens, takeAck, hcontroller]; split <;> rfl
    | true =>
        simp only [tokens, takeAck, if_pos]
        split
        next => rfl
        next =>
          rw [List.map_map]
          refine List.map_congr_left fun controller _ => ?_
          dsimp only [Function.comp]
          split <;> rfl
  unfold ShellRuntime.acknowledge at hr
  split at hr
  next => exact htake.leaveLoop hr
  next => cases hr

theorem Inv.hangUp (h : r.Inv vt reconstruction start past) (hr : r.hangUp t = some r') :
    r'.Inv vt reconstruction start past := by
  unfold ShellRuntime.hangUp at hr
  split at hr
  next => exact h.leaveLoop hr
  next => cases hr

theorem Inv.releaseBy (h : r.Inv vt reconstruction start past) {f : Attachment → Option Attachment}
    (hf : ∀ a a', f a = some a' → a.Kept a' ∧ (∀ feed, a.Fed feed → a'.Fed feed))
    (hr : r.releaseBy t f = some r') : r'.Inv vt reconstruction start past := by
  unfold ShellRuntime.releaseBy at hr
  split at hr
  next => exact (h.releaseController t).only_ends hf hr
  next => cases hr

theorem Inv.releaseWorker (h : r.Inv vt reconstruction start past)
    (hr : r.releaseWorker t = some r') :
    r'.Inv vt reconstruction start past := by
  refine h.releaseBy (fun a a' ha => ?_) hr
  split at ha
  next hworker =>
    obtain rfl := Option.some.inj ha
    refine ⟨⟨rfl, rfl, rfl, rfl, rfl⟩, fun feed hfed => ?_⟩
    obtain ⟨pre, ending, hpre, hnot, hframes, hstands⟩ := hfed.written
    rw [hworker] at hstands
    exact .of_dead rfl hfed.left_le hfed.room hfed.taken_front ⟨pre, ending, hpre, hnot, hframes,
      hstands⟩
  next => cases ha

theorem Inv.releaseInput (h : r.Inv vt reconstruction start past)
    (hr : r.releaseInput t = some r') :
    r'.Inv vt reconstruction start past := by
  refine h.releaseBy (fun a a' ha => ?_) hr
  split at ha
  next =>
    obtain rfl := Option.some.inj ha
    exact ⟨⟨rfl, rfl, rfl, rfl, rfl⟩, fun feed hfed => ⟨hfed.left_le, hfed.room, hfed.channel,
      hfed.dropped,
      hfed.written⟩⟩
  next => cases ha

/-! ### Reconnecting -/

/-- A participant is asked to reconnect. -/
theorem Inv.ask (h : r.Inv vt reconstruction start past) (haccepts : r.accepts t = true) :
    (r.modify [t] (·.push .reconnect)).Inv vt reconstruction start past := by
  refine h.modify_one fun a ha hfed => ?_
  obtain ⟨halive, hroom⟩ := of_accepts haccepts ha
  exact ⟨⟨rfl, rfl, rfl, rfl, rfl⟩, hfed.quiesce halive hroom⟩

theorem Inv.quiesceController (h : r.Inv vt reconstruction start past)
    (hr : r.quiesceController = some r') :
    r'.Inv vt reconstruction start past := by
  unfold ShellRuntime.quiesceController at hr
  split at hr
  next controller hcontroller =>
    have hasked : ({ r with controller := some { controller with reconnectAck := true } } :
        ShellRuntime T Parser).Inv vt reconstruction start past := by
      refine h.transfer rfl rfl rfl rfl rfl (fun c => ?_) (fun _ _ hp => hp) h.waits
      cases c with
      | false => simp [tokens, hcontroller]
      | true => rfl
    split at hr
    next =>
      split at hr
      next =>
        dsimp only at hr
        split at hr
        next haccepts =>
          obtain rfl := Option.some.inj hr
          exact hasked.ask haccepts
        next =>
          obtain rfl := Option.some.inj hr
          exact hasked
      next =>
        obtain rfl := Option.some.inj hr
        exact h.dropController
    next => cases hr
  next => cases hr

theorem Inv.quiesceCollaborator (h : r.Inv vt reconstruction start past)
    (hr : r.quiesceCollaborator t = some r') :
    r'.Inv vt reconstruction start past := by
  unfold ShellRuntime.quiesceCollaborator at hr
  split at hr
  next =>
    have hasked : ({ r with collaborators := r.collaborators.map fun c =>
        if c.token = t then { c with reconnectAck := true } else c } : ShellRuntime T Parser).Inv vt
          reconstruction
        start past := by
      refine h.transfer rfl rfl rfl rfl rfl (fun c => ?_) (fun _ _ hp => hp) h.waits
      cases c with
      | false => rfl
      | true =>
          simp only [tokens, if_pos, List.map_map]
          refine List.map_congr_left fun controller _ => ?_
          dsimp only [Function.comp]
          split <;> rfl
    split at hr
    next =>
      dsimp only at hr
      split at hr
      next haccepts =>
        obtain rfl := Option.some.inj hr
        exact hasked.ask haccepts
      next =>
        obtain rfl := Option.some.inj hr
        exact hasked
    next =>
      obtain rfl := Option.some.inj hr
      exact h.dropCollaborators _
  next => cases hr

/-! ### Runs -/

theorem participantIsAuthorized_iff : r.participantIsAuthorized t = true ↔ ∃ c, t ∈ r.tokens c := by
  rw [Bool.exists_bool]
  simp only [participantIsAuthorized, participantIsPrimary, Bool.or_eq_true, tokens, if_pos,
    Bool.false_eq_true,
    if_false, List.mem_map, Option.mem_toList, List.any_eq_true, Option.any_eq_true,
      decide_eq_true_eq]

theorem Inv.step (h : r.Inv vt reconstruction start past) {action : Action T}
    (hr : r.step vt reconstruction action = some r') : r'.Inv vt reconstruction start past := by
  cases action with
  | readPty bytes => exact h.readPty hr
  | lockController => exact h.lockController hr
  | sendController => exact h.sendController hr
  | fanCollaborators => exact h.fanCollaborators hr
  | leaveReader => exact h.leaveReader (fun _ => rfl) hr
  | stopReader => exact h.leaveReader (fun _ => rfl) hr
  | takeController => exact h.takeController hr
  | clearCollaborators => exact h.clearCollaborators hr
  | attach t collaborative takeover size => exact h.attach hr
  | checkAttach resized => exact h.checkAttach hr
  | drawResize => exact h.drawResize hr
  | join answered spawned => exact h.join hr
  | receive t =>
      refine h.only (fun a a' ha hfed hf => hfed.receive (fun hnot => ?_) hf) hr
      -- Whoever is no participant any more has left.
      rw [Option.isSome_iff_ne_none]
      intro hnone
      rw [participantIsAuthorized_iff.mpr ⟨_, h.staying t a ha hnone⟩] at hnot
      cases hnot
  | write t ok => exact h.only (fun a a' _ hfed hf => hfed.write hf) hr
  | drain t => exact h.only (fun a a' _ hfed hf => hfed.drain hf) hr
  | finish t ok => exact h.only (fun a a' _ hfed hf => hfed.finish hf) hr
  | releaseWorker t => exact h.releaseWorker hr
  | request t request => exact h.takeControl hr
  | checkFrame => exact h.checkFrame hr
  | writePty count => exact h.writePty hr
  | failPty => exact h.failPty hr
  | resizeMaster ok => exact h.resizeMaster hr
  | fanResize => exact h.fanResize hr
  | acknowledge t => exact h.acknowledge hr
  | hangUp t => exact h.hangUp hr
  | releaseInput t => exact h.releaseInput hr
  | quiesceController => exact h.quiesceController hr
  | quiesceCollaborator t => exact h.quiesceCollaborator hr
  | stopController =>
      simp only [ShellRuntime.step] at hr
      split at hr
      next =>
        obtain rfl := Option.some.inj hr
        exact h.dropController
      next => cases hr
  | stopCollaborators =>
      obtain rfl := Option.some.inj hr
      exact h.dropCollaborators _

theorem Inv.reach (h : r.Inv vt reconstruction start past)
    (hreach : Reach (ShellRuntime.step vt reconstruction) (fun _ _ => True) r r') :
    r'.Inv vt reconstruction start past :=
  hreach.invariant (I := fun q => q.Inv vt reconstruction start past) h fun _ _ _ hinv _ hstep =>
    hinv.step hstep

/-- What a client is sent, in every interleaving of the runtime's threads. The reconstruction in
the response is that of the terminal after some of its calls. The frames after it carry the outputs
that the terminal processed from there on, in order and without a gap, and a `Detached` or a
`Reconnect` is the last of them. While the reader is about to read the PTY, the attachment is a
participant and its thread waits or writes, all that it has not been sent is queued for it or in the
thread's hand. A client that is told that it is detached, over a connection that has not failed, has
been sent every output that the terminal had processed when its attachment was a participant and
the reader was about to read the PTY. -/
theorem delivered {r₀ : ShellRuntime T Parser} (hfresh : r₀.Fresh)
    (hr : Reach (ShellRuntime.step vt reconstruction) (fun _ _ => True) r₀ r)
    (hr' : Reach (ShellRuntime.step vt reconstruction) (fun _ _ => True) r r')
    (ha : r'.attachments t = some a) :
    a.reconstruction = reconstruction (replay vt r₀.terminal (r'.history.take a.cut)) ∧
    (∃ body ending, a.frames = body ++ ending ∧ (∀ frame ∈ body, frame ≠ .detached
      ∧ frame ≠ .reconnect) ∧
      (ending = [] ∨ ending = [.reconnect] ∨ ending = [.detached])) ∧
    outputs a.frames <+: chunks (r'.history.drop a.cut) ∧
    (r'.participantIsAuthorized t = true → r'.reader = .reading →
      (a.worker = .receiving ∨ ∃ output, a.worker = .writing output) →
      outputs a.frames ++ dataOf (a.inHand ++ a.queue) = chunks (r'.history.drop a.cut)) ∧
    (r.participantIsAuthorized t = true → r.reader = .reading → .detached ∈ a.frames →
      a.broken = false →
      chunks (r.history.drop a.cut) <+: outputs a.frames) := by
  have hinv : r.Inv vt reconstruction r₀.terminal r₀ := hfresh.inv.reach hr
  have hinv' : r'.Inv vt reconstruction r₀.terminal r :=
    Inv.reach { hinv with grows := .refl r } hr'
  obtain ⟨haligned, hfed, hdrawn⟩ := hinv'.located t a ha
  refine ⟨hdrawn, hfed.frames_end, hfed.outputs_front.trans haligned.behind,
    fun hmember hreader hworker => ?_,
    fun hmember hreader hdetached hbroken => ?_⟩
  · obtain ⟨c, hc⟩ := participantIsAuthorized_iff.mp hmember
    obtain ⟨b, hb, -, hleft⟩ := hinv'.member c t hc
    obtain rfl := Option.some.inj (ha.symm.trans hb)
    have hlevel := haligned.level [] (by rw [hreader]; rfl)
    rw [hfed.outputs_waiting hworker, hleft, share_none, ← hlevel, List.append_nil]
  · -- It was a participant when its feed had `n` entries, so it left no sooner.
    obtain ⟨c, hc⟩ := participantIsAuthorized_iff.mp hmember
    obtain ⟨b, hb, rfl, hleft⟩ := hinv.member c t hc
    obtain ⟨a', ha', hlater⟩ := hinv'.grows.attachments t b hb
    obtain rfl := Option.some.inj (ha.symm.trans ha')
    have hlevel := (hinv.located t b hb).aligned.level [] (by rw [hreader]; rfl)
    have hfeed := hinv'.grows.handedOut b.collaborative
    have hshare : (r.handedOut b.collaborative).drop b.since
        <+: share (r'.handedOut b.collaborative) b.since a.left := by
      have htake := List.prefix_iff_eq_take.mp hfeed
      conv_lhs => rw [htake]
      refine front_share fun n hn => ?_
      obtain hn | hn := hlater.left n hn
      · cases hleft.symm.trans hn
      · exact hn
    rw [(hfed.outputs_detached hdetached hbroken).2, hlater.cut, hlater.since, hlater.collaborative,
      ← hlevel,
      List.append_nil]
    exact dataOf_mono hshare

/-- A runtime whose terminal is drawn nowhere. -/
def idleRuntime : ShellRuntime Nat (Nat × Nat) where
  size := ⟨2, 4, 0, 0⟩
  profile := ⟨2, 4, 0, 0⟩
  terminal := .new TerminalState.undrawn 2 4
  outputRevision := 0
  controller := none
  collaborators := []
  reader := .reading
  control := none
  input := []
  attachments _ := none
  history := []
  sends := []
  fanouts := []

/-- A controller attaches, and the shell writes two bytes. -/
def greeted : List (Action Nat) :=
  [.attach 1 false false ⟨2, 4, 0, 0⟩, .checkAttach true, .drawResize, .join true true,
    .readPty [0x68, 0x69],
    .lockController, .sendController, .fanCollaborators]

/-- The shell ends before they are written. -/
def exited : List (Action Nat) :=
  [.leaveReader, .takeController, .clearCollaborators, .receive 1, .write 1 true, .receive 1,
    .finish 1 true]

theorem delivered_on_exit : ∃ r r' : ShellRuntime Nat (Nat × Nat), ∃ a,
    exec (ShellRuntime.step TerminalState.undrawn fun _ => []) idleRuntime greeted = some r ∧
    exec (ShellRuntime.step TerminalState.undrawn fun _ => []) r exited = some r'
      ∧ r'.attachments 1 = some a ∧
    a.frames = [.output [0x68, 0x69], .detached]
      ∧ chunks (r.history.drop a.cut) <+: outputs a.frames := by
  refine ⟨_, _, _, rfl, rfl, rfl, rfl, ?_⟩
  have hfresh : idleRuntime.Fresh := ⟨rfl, rfl, rfl, rfl, fun _ => rfl, rfl, rfl, rfl⟩
  have hr := reach_of_exec_true
    (show exec (ShellRuntime.step TerminalState.undrawn fun _ => []) idleRuntime greeted =
      some _ from rfl)
  exact (delivered hfresh hr (reach_of_exec_true (show exec _ _ exited = some _ from rfl))
    (t := 1) rfl).2.2.2.2
    rfl rfl (by simp) rfl

end ShellRuntime

end Boomux.Attach
