import XbeeAssignment.Socket.Reframing
import XbeeAssignment.Socket.Transmit
import Mathlib.Algebra.BigOperators.Group.List.Basic

/-!
# Packages between a sender and a receiver

A sender calls `Tx` with packages of `p` bytes, and a receiver cuts the bytes of the
connection into packages of `p` bytes again, by count alone.  `Tx` hands a package
to a `send` that does not block and may accept a part of it, and returns what
`send` returned; nothing sends the rest.  From there on the cuts of the receiver are
not those of the sender.

The bytes accepted are whole packages up to the first short `send`, and then a rest
that begins in the middle of nothing (`sent_split`).  So the packages delivered are
packages passed to `Tx`, in order, exactly if that rest never makes up a package
(`untorn_iff`): if it does, packages of a one and zeros show the cut.
-/

namespace XbeeAssignment.Socket

open Transition Framing

/-! ## Short sends -/

/-- `send` accepted a part of a package of `p` bytes. -/
def IsShort (p : ℕ) (sent : ℤ) : Prop := 0 < sent ∧ sent < p

instance (p : ℕ) (sent : ℤ) : Decidable (IsShort p sent) :=
  inferInstanceAs (Decidable (_ ∧ _))

/-- From the first short `send` on, fewer than `p` bytes are accepted in total. -/
def Aligned (p : ℕ) (results : List ℤ) : Prop :=
  ((results.dropWhile fun sent => ¬ IsShort p sent).map Int.toNat).sum < p

instance (p : ℕ) (results : List ℤ) : Decidable (Aligned p results) :=
  inferInstanceAs (Decidable (_ < _))

/-! ## The connection -/

/-- The sender, the receiver, the calls of `Tx` on their connection so far with what `send`
returned, and the bytes it accepted. -/
structure Link where
  half : TxHalf
  session : Session
  calls : List (List UInt8 × ℤ)
  sent : List UInt8

inductive LinkEvent
  /-- `Tx` is called with a package and its `send` returns `sent`. -/
  | tx (package : List UInt8) (sent : ℤ)
  /-- A step of the receiver. -/
  | listener (event : RxEvent)

namespace Link

/-- A connection between two ends on which nothing was sent yet. -/
def start (half : TxHalf) (session : Session) : Link :=
  { half := half, session := session, calls := [], sent := [] }

/-- The packages passed to `Tx` so far. -/
def passed (l : Link) : List (List UInt8) := l.calls.map Prod.fst

/-- What the calls of `send` have returned so far. -/
def results (l : Link) : List ℤ := l.calls.map Prod.snd

/-- A `recv` on the connection, stored in slot `i`, finds bytes that were accepted and not read
yet, in order. -/
def Delivers (i : Fin maxClients) (l : Link) : RxEvent → Prop
  | .recv j waiting =>
      j = i → waiting.getD [] <+: l.sent.drop (l.session.traffic i).received.length
  | _ => True

/-- The connection stays in its slot, and delivers what was accepted. -/
def Carries (i : Fin maxClients) (l : Link) (event : RxEvent) : Prop :=
  l.session.KeepsSlot i event ∧ l.Delivers i event

instance (i : Fin maxClients) (l : Link) (event : RxEvent) : Decidable (l.Carries i event) := by
  unfold Carries Delivers
  cases event <;> infer_instance

/-- A call of `Tx` with a package of `p` bytes, or a step of the receiver. -/
def next (p : ℕ) (i : Fin maxClients) (l : Link) : LinkEvent → Option Link
  | .tx package sent =>
      if package.length = p ∧ -1 ≤ sent ∧ sent ≤ p then
        some { l with calls := l.calls ++ [(package, sent)]
                      sent := l.sent ++ (l.half.tx package sent).2 }
      else none
  | .listener event =>
      if l.Carries i event then
        (l.session.next event).map fun session => { l with session := session }
      else none

/-- The packages delivered are packages passed to `Tx`, in the order passed. -/
def Untorn (i : Fin maxClients) (l : Link) : Prop :=
  (l.session.traffic i).delivered.Sublist l.passed

instance (i : Fin maxClients) (l : Link) : Decidable (l.Untorn i) :=
  inferInstanceAs (Decidable (List.Sublist _ _))

end Link

/-! ## What is accepted -/

/-- The bytes accepted of a package. -/
def accepted (call : List UInt8 × ℤ) : List UInt8 := call.1.take call.2.toNat

theorem tx_accepted {half : TxHalf} (hdesc : half.txSocketDesc ≠ -1)
    (hconnected : half.txIsConnected = true) (package : List UInt8) (sent : ℤ) :
    (half.tx package sent).2 = accepted (package, sent) := by
  rw [TxHalf.tx, if_pos ⟨hdesc, hconnected⟩, accepted]

section

variable {p : ℕ} {calls : List (List UInt8 × ℤ)}

/-- A call of `Tx` with a package of `p` bytes, of which `send` accepts at most all. -/
def Fits (p : ℕ) (call : List UInt8 × ℤ) : Prop :=
  call.1.length = p ∧ -1 ≤ call.2 ∧ call.2 ≤ p

theorem length_accepted_call {call : List UInt8 × ℤ} (hfits : Fits p call) :
    (accepted call).length = call.2.toNat := by
  obtain ⟨hlength, -, hle⟩ := hfits
  rw [accepted, List.length_take]
  omega

theorem length_flatMap_accepted (hfits : ∀ call ∈ calls, Fits p call) :
    (calls.flatMap accepted).length = ((calls.map Prod.snd).map Int.toNat).sum := by
  induction calls with
  | nil => rfl
  | cons call calls ih =>
      have htail := ih fun other hother => hfits other (List.mem_cons_of_mem _ hother)
      rw [List.flatMap_cons, List.length_append, htail,
        length_accepted_call (hfits call (List.mem_cons_self ..))]
      simp

/-- The calls from the first short `send` on. -/
def fromShort (p : ℕ) (calls : List (List UInt8 × ℤ)) : List (List UInt8 × ℤ) :=
  calls.dropWhile fun call => ¬ IsShort p call.2

theorem results_fromShort (p : ℕ) (calls : List (List UInt8 × ℤ)) :
    (fromShort p calls).map Prod.snd =
      (calls.map Prod.snd).dropWhile fun sent => ¬ IsShort p sent := by
  rw [List.dropWhile_map]
  rfl

/-- `Aligned` bounds what is accepted from the first short `send` on. -/
theorem aligned_iff (hfits : ∀ call ∈ calls, Fits p call) :
    Aligned p (calls.map Prod.snd) ↔ ((fromShort p calls).flatMap accepted).length < p := by
  have hrest : ∀ call ∈ fromShort p calls, Fits p call := fun call hmem =>
    hfits call ((List.dropWhile_sublist _).mem hmem)
  rw [length_flatMap_accepted hrest, results_fromShort, Aligned]

/-- Whole packages, and then what is accepted from the first short `send` on. -/
theorem sent_split (hfits : ∀ call ∈ calls, Fits p call) :
    ∃ whole : List (List UInt8),
      calls.flatMap accepted = whole.flatten ++ (fromShort p calls).flatMap accepted ∧
        whole.Sublist (calls.map Prod.fst) ∧ ∀ package ∈ whole, package.length = p := by
  induction calls with
  | nil => exact ⟨[], rfl, .slnil, by simp⟩
  | cons call calls ih =>
      obtain ⟨hpackage, hlow, hhigh⟩ := hfits call (List.mem_cons_self ..)
      by_cases hshort : IsShort p call.2
      · refine ⟨[], ?_, List.nil_sublist _, by simp⟩
        rw [fromShort, List.dropWhile_cons_of_neg (by simpa)]
        rfl
      · obtain ⟨whole, hsent, hsublist, hlength⟩ :=
          ih fun other hother => hfits other (List.mem_cons_of_mem _ hother)
        rw [fromShort, List.dropWhile_cons_of_pos (by simpa), ← fromShort, List.flatMap_cons,
          hsent, List.map_cons]
        unfold IsShort at hshort
        by_cases hnone : call.2 ≤ 0
        · -- nothing was accepted
          refine ⟨whole, ?_, hsublist.cons _, hlength⟩
          rw [accepted, Int.toNat_of_nonpos hnone, List.take_zero, List.nil_append]
        · -- all of the package was
          refine ⟨call.1 :: whole, ?_, hsublist.cons_cons _, ?_⟩
          · rw [accepted, List.take_of_length_le (by omega), List.flatten_cons, List.append_assoc]
          · intro package hmem
            rcases List.mem_cons.mp hmem with rfl | hmem
            · exact hpackage
            · exact hlength package hmem

end

/-! ## Runs of a link -/

namespace Session

variable {s s' : Session} {i : Fin maxClients}

/-- What a step adds to the bytes received from a connection is what a `recv` on it finds, or the
beginning of that. -/
theorem received_step {event : RxEvent} (hkeeps : s.KeepsSlot i event)
    (hstep : s.step event = .ok s') :
    (s'.traffic i).received = (s.traffic i).received ∨
      ∃ waiting read, event = .recv i waiting ∧ read <+: waiting.getD [] ∧
        (s'.traffic i).received = (s.traffic i).received ++ read := by
  cases step_cases hstep with
  | refused _ | unready => exact .inl rfl
  | @accept conn j haccepts hfree =>
      have hne : i ≠ j := by
        rintro rfl
        exact hkeeps haccepts hfree
      refine .inl ?_
      show ((s.store j (acceptClient conn (s.sock.clientList j)) ⟨[], []⟩).traffic i).received =
        (s.traffic i).received
      rw [store_traffic_of_ne _ _ _ hne]
  | @recv j waiting client read hrecv =>
      by_cases hsame : i = j
      · subst hsame
        refine .inr ⟨waiting, read, rfl, ?_, by rw [store_traffic_self]⟩
        by_cases hraw : (s.sock.clientList i).rawFlag = 1
        · rw [recvClient_read hraw hrecv]
          exact List.take_prefix ..
        · rw [recvClient, if_neg hraw] at hrecv
          cases hrecv
          exact List.nil_prefix
      · exact .inl (by rw [store_traffic_of_ne _ _ _ hsame])
  | @move j client packages hmove =>
      by_cases hsame : i = j
      · subst hsame
        exact .inl (by rw [store_traffic_self])
      · exact .inl (by rw [store_traffic_of_ne _ _ _ hsame])
  | @rx j client package hready hrx =>
      by_cases hsame : i = j
      · subst hsame
        exact .inl (by rw [store_traffic_self])
      · exact .inl (by rw [store_traffic_of_ne _ _ _ hsame])

end Session

namespace Link

variable {p : ℕ} {i : Fin maxClients} {l l' : Link}

/-- The receiver re-frames the bytes accepted so far, as far as it has read them. -/
structure Kept (p : ℕ) (i : Fin maxClients) (l : Link) : Prop where
  desc : l.half.txSocketDesc ≠ -1
  connected : l.half.txIsConnected = true
  fits : ∀ call ∈ l.calls, Fits p call
  sent_eq : l.sent = l.calls.flatMap accepted
  reframes : l.session.Reframes p i
  received : (l.session.traffic i).received <+: l.sent

/-- What a step can do. -/
theorem next_cases {event : LinkEvent} (hstep : l.next p i event = some l') :
    (∃ package sent, event = .tx package sent ∧ Fits p (package, sent) ∧
      l' = { l with calls := l.calls ++ [(package, sent)]
                    sent := l.sent ++ (l.half.tx package sent).2 }) ∨
    (∃ rxEvent session, event = .listener rxEvent ∧ l.Carries i rxEvent ∧
      l.session.step rxEvent = .ok session ∧ l' = { l with session := session }) := by
  cases event with
  | tx package sent =>
      simp only [next] at hstep
      split at hstep
      · next hfits =>
          cases hstep
          exact .inl ⟨package, sent, rfl, hfits, rfl⟩
      · cases hstep
  | listener rxEvent =>
      simp only [next] at hstep
      split at hstep
      · next hcarries =>
          obtain ⟨session, hsession, rfl⟩ := Option.map_eq_some_iff.mp hstep
          exact .inr ⟨rxEvent, session, rfl, hcarries, Session.stepOf_next.mp hsession, rfl⟩
      · cases hstep

theorem Kept.step (hp : 0 < p) (h : l.Kept p i) {event : LinkEvent}
    (hstep : l.next p i event = some l') : l'.Kept p i := by
  rcases next_cases hstep with ⟨package, sent, rfl, hfits, rfl⟩ |
    ⟨rxEvent, session, rfl, ⟨hkeeps, hdelivers⟩, hsession, rfl⟩
  · have haccepted := tx_accepted h.desc h.connected package sent
    refine { h with fits := ?_, sent_eq := ?_, received := ?_ }
    · intro call hmem
      rcases List.mem_append.mp hmem with hold | hnew
      · exact h.fits call hold
      · rwa [List.mem_singleton.mp hnew]
    · rw [haccepted, h.sent_eq, List.flatMap_append, List.flatMap_singleton]
    · exact h.received.trans (List.prefix_append ..)
  · refine { h with reframes := h.reframes.step hp hkeeps hsession, received := ?_ }
    rcases Session.received_step hkeeps hsession with heq | ⟨waiting, read, rfl, hread, heq⟩
    · show (session.traffic i).received <+: l.sent
      rw [heq]
      exact h.received
    · -- what is read continues what was received before
      have hfound := hread.trans (hdelivers rfl)
      obtain ⟨later, hlater⟩ := h.received
      rw [← hlater, List.drop_left] at hfound
      show (session.traffic i).received <+: l.sent
      rw [heq, ← hlater, List.prefix_append_right_inj]
      exact hfound

theorem Kept.run (hp : 0 < p) (h : l.Kept p i) {events : List LinkEvent}
    (hrun : Run (StepOf (next p i)) l events l') : l'.Kept p i := by
  apply hrun.invariant _ h
  intro l event l' h hstep
  exact h.step hp hstep

/-- Nothing is torn while no rest makes up a package. -/
theorem Kept.untorn (h : l.Kept p i) (haligned : Aligned p l.results) : l.Untorn i := by
  obtain ⟨-, inBytes, readyBytes, hslot⟩ := h.reframes
  obtain ⟨whole, hsent, hsublist, hlength⟩ := sent_split h.fits
  have hrest := (aligned_iff h.fits).mp haligned
  have hstream : (l.session.traffic i).received <+:
      whole.flatten ++ (fromShort p l.calls).flatMap accepted := by
    rw [← hsent, ← h.sent_eq]
    exact h.received
  have hbegins := hslot.framed.packages_begin hlength hrest hstream
  exact hbegins.sublist.trans hsublist

/-! ## A rest that makes up a package -/

/-- A one and zeros. -/
def marker (p : ℕ) : List UInt8 := 1 :: List.replicate (p - 1) 0

/-- The calls with markers as packages. -/
def markerCalls (p : ℕ) (results : List ℤ) : List (List UInt8 × ℤ) :=
  results.map fun sent => (marker p, sent)

@[simp] theorem markerCalls_passed (p : ℕ) (results : List ℤ) :
    (markerCalls p results).map Prod.fst = List.replicate results.length (marker p) := by
  rw [markerCalls, List.map_map]
  exact List.map_const' ..

@[simp] theorem markerCalls_results (p : ℕ) (results : List ℤ) :
    (markerCalls p results).map Prod.snd = results := by
  rw [markerCalls, List.map_map]
  exact List.map_id _

theorem length_marker (hp : 0 < p) : (marker p).length = p := by
  rw [marker, List.length_cons, List.length_replicate]
  omega

/-- Whatever is accepted of markers begins with a one. -/
theorem head_markers (p : ℕ) (results : List ℤ)
    (hne : (markerCalls p results).flatMap accepted ≠ []) :
    ((markerCalls p results).flatMap accepted)[0]? = some 1 := by
  induction results with
  | nil => exact absurd rfl hne
  | cons sent results ih =>
      rw [markerCalls, List.map_cons, List.flatMap_cons, ← markerCalls] at hne ⊢
      by_cases hnone : sent.toNat = 0
      · have hempty : accepted (marker p, sent) = [] := by
          rw [accepted, hnone, List.take_zero]
        rw [hempty, List.nil_append] at hne ⊢
        exact ih hne
      · obtain ⟨n, hn⟩ := Nat.exists_eq_succ_of_ne_zero hnone
        rw [accepted, hn, marker]
        rfl

theorem fromShort_markers (p : ℕ) (results : List ℤ) :
    fromShort p (markerCalls p results) = [] ∨
      ∃ sent later, IsShort p sent ∧
        fromShort p (markerCalls p results) = (marker p, sent) :: markerCalls p later := by
  induction results with
  | nil => exact .inl rfl
  | cons sent results ih =>
      rw [markerCalls, List.map_cons, ← markerCalls, fromShort]
      by_cases hshort : IsShort p sent
      · rw [List.dropWhile_cons_of_neg (by simpa)]
        exact .inr ⟨sent, results, hshort, rfl⟩
      · rw [List.dropWhile_cons_of_pos (by simpa)]
        exact ih

/-- The package made up by the rest is no marker: it has a one where the first short `send`
ended. -/
theorem torn_ne_marker (hp : 0 < p) {results : List ℤ}
    (hlong : p ≤ ((fromShort p (markerCalls p results)).flatMap accepted).length) :
    ((fromShort p (markerCalls p results)).flatMap accepted).take p ≠ marker p := by
  rcases fromShort_markers p results with hnone | ⟨sent, later, hshort, hrest⟩
  · rw [hnone, List.flatMap_nil, List.length_nil] at hlong
    omega
  · obtain ⟨n, rfl⟩ := Int.eq_ofNat_of_zero_le hshort.1.le
    unfold IsShort at hshort
    have hpart : (accepted (marker p, (n : ℤ))).length = n := by
      rw [accepted, Int.toNat_natCast, List.length_take, length_marker hp]
      omega
    rw [hrest, List.flatMap_cons, List.length_append, hpart] at hlong
    rw [hrest, List.flatMap_cons]
    have hmore : (markerCalls p later).flatMap accepted ≠ [] := by
      intro hempty
      rw [hempty, List.length_nil] at hlong
      omega
    have hone := head_markers p later hmore
    intro hsame
    have hat : (_ : List UInt8)[n]? = (marker p)[n]? := congrArg (fun package => package[n]?) hsame
    rw [List.getElem?_take_of_lt (by omega), List.getElem?_append_right hpart.le, hpart,
      Nat.sub_self, hone] at hat
    obtain ⟨m, rfl⟩ := Nat.exists_eq_succ_of_ne_zero (show n ≠ 0 by omega)
    rw [marker, List.getElem?_cons_succ, List.getElem?_replicate_of_lt (by omega)] at hat
    exact absurd (Option.some.inj hat) (by decide)

/-! ## Feeding the receiver -/

/-- The receiver has a callback and has handed out the first `k` packages of the stream. -/
structure FedTo (p k : ℕ) (i : Fin maxClients) (l : Link) : Prop where
  kept : l.Kept p i
  callback : l.session.sock.callback = true
  settled : l.session.Settled p i
  received : (l.session.traffic i).received.length = k * p

theorem FedTo.delivered {k : ℕ} (h : l.FedTo p k i) :
    (l.session.traffic i).delivered.length = k ∧ (l.session.sock.clientList i).inBytes = [] := by
  obtain ⟨-, inBytes, readyBytes, hslot⟩ := h.kept.reframes
  have hpending := h.settled h.callback
  rw [hslot.holds.readyBytes_eq, hslot.holds.inBytes_eq] at hpending
  obtain ⟨hcount, hnone⟩ := hslot.framed.whole h.received hpending
  rw [hslot.holds.inBytes_eq]
  exact ⟨hcount, (List.append_eq_nil_iff.mp hnone).2⟩

theorem next_listener {event : RxEvent} {session : Session} (hcarries : l.Carries i event)
    (hstep : l.session.step event = .ok session) :
    l.next p i (.listener event) = some { l with session := session } := by
  have hnext : l.session.next event = some session := Session.stepOf_next.mpr hstep
  rw [next, if_pos hcarries, hnext, Option.map_some]

/-- The next `p` bytes of the stream are read. -/
theorem FedTo.read {k : ℕ} (hmax : p ≤ 65535) (h : l.FedTo p k i)
    (hmore : (k + 1) * p ≤ l.sent.length) :
    ∃ session, l.session.step (.recv i (some ((l.sent.drop (k * p)).take p))) = .ok session ∧
      (session.traffic i).received.length = (k + 1) * p := by
  obtain ⟨-, hempty⟩ := h.delivered
  obtain ⟨-, inBytes, readyBytes, hslot⟩ := h.kept.reframes
  rw [hslot.holds.inBytes_eq] at hempty
  subst hempty
  obtain ⟨client, read, hrecv, -⟩ := hslot.recvClient (some ((l.sent.drop (k * p)).take p))
  rw [Nat.add_mul, Nat.one_mul] at hmore ⊢
  -- there is room for all of it
  have hread : read.length = p := by
    have hroom : (l.session.sock.clientList i).pEnd - (l.session.sock.clientList i).pWrite =
        65535 := by
      rw [hslot.holds.pEnd, hslot.holds.pWrite]
      rfl
    rw [recvClient_read hslot.holds.rawFlag hrecv, hroom, Option.getD_some, List.length_take,
      List.length_take, List.length_drop]
    omega
  refine ⟨l.session.store i client
    { l.session.traffic i with received := (l.session.traffic i).received ++ read }, ?_, ?_⟩
  · simp only [Session.step, hrecv, Session.finish]
  · rw [Session.store_traffic_self, List.length_append, h.received, hread]

/-- The next `p` bytes of the stream are read and handed out. -/
theorem FedTo.feed {k : ℕ} (hp : 0 < p) (hmax : p ≤ 65535) (h : l.FedTo p k i)
    (hmore : (k + 1) * p ≤ l.sent.length) :
    ∃ l' events, Run (StepOf (next p i)) l events l' ∧ l'.FedTo p (k + 1) i ∧
      l'.sent = l.sent ∧ l'.calls = l.calls := by
  obtain ⟨received, hrecv, hlength⟩ := h.read hmax hmore
  have hcarries : l.Carries i (.recv i (some ((l.sent.drop (k * p)).take p))) := by
    refine ⟨fun haccepts => (by cases haccepts), fun _ => ?_⟩
    rw [h.received]
    exact List.take_prefix ..
  have hfirst := next_listener (p := p) hcarries hrecv
  have hkept := h.kept.step hp hfirst
  -- the move of the slot hands the package out
  obtain ⟨hsize, inBytes, readyBytes, hslot⟩ := hkept.reframes
  obtain ⟨client, packages, _, _, hmove, -, -⟩ := hslot.moveClient hp
  have hstep : received.step (.move i) = .ok (received.store i client
      { received.traffic i with
        delivered := (received.traffic i).delivered ++ packages }) := by
    have hsize : received.sock.packageSize = p := hsize
    simp only [Session.step, hsize, hmove, Session.finish]
  have hcarries' : ({ l with session := received } : Link).Carries i (.move i) :=
    ⟨fun haccepts => (by cases haccepts), trivial⟩
  have hsecond := next_listener (p := p) hcarries' hstep
  refine ⟨_, _, .cons hfirst (.cons hsecond (.nil _)), ?_, rfl, rfl⟩
  refine { kept := hkept.step hp hsecond, callback := ?_, settled := ?_, received := ?_ }
  · rw [(Session.step_settings hstep).2, (Session.step_settings hrecv).2]
    exact h.callback
  · exact Session.settled_of_move hp hkept.reframes hstep
  · rw [Session.store_traffic_self]
    exact hlength

theorem exists_fedTo {k : ℕ} (hp : 0 < p) (hmax : p ≤ 65535) (h : l.FedTo p 0 i)
    (hmore : k * p ≤ l.sent.length) :
    ∃ l' events, Run (StepOf (next p i)) l events l' ∧ l'.FedTo p k i ∧
      l'.sent = l.sent ∧ l'.calls = l.calls := by
  induction k with
  | zero => exact ⟨l, [], .nil l, h, rfl, rfl⟩
  | succ k ih =>
      rw [Nat.add_mul, Nat.one_mul] at hmore
      obtain ⟨l₁, events, hrun, hfed, hsent, hcalls⟩ := ih (by omega)
      obtain ⟨l₂, more, hrun', hfed', hsent', hcalls'⟩ := hfed.feed hp hmax (by
        rw [hsent, Nat.add_mul, Nat.one_mul]
        exact hmore)
      exact ⟨l₂, _, hrun.append hrun', hfed', hsent'.trans hsent, hcalls'.trans hcalls⟩

/-- The calls of `Tx` with markers. -/
theorem run_markers {results : List ℤ} (hp : 0 < p)
    (hresults : ∀ sent ∈ results, -1 ≤ sent ∧ sent ≤ p) (l : Link) :
    ∃ l' events, Run (StepOf (next p i)) l events l' ∧ l'.session = l.session ∧
      l'.calls = l.calls ++ markerCalls p results := by
  induction results generalizing l with
  | nil => exact ⟨l, [], .nil l, rfl, (List.append_nil _).symm⟩
  | cons sent results ih =>
      obtain ⟨hlow, hhigh⟩ := hresults sent (List.mem_cons_self ..)
      have hfirst : l.next p i (.tx (marker p) sent) = some
          { l with calls := l.calls ++ [(marker p, sent)]
                   sent := l.sent ++ (l.half.tx (marker p) sent).2 } := by
        rw [next, if_pos ⟨length_marker hp, hlow, hhigh⟩]
      obtain ⟨l', events, hrun, hsession, hcalls⟩ :=
        ih (fun other hother => hresults other (List.mem_cons_of_mem _ hother)) _
      refine ⟨l', _, .cons hfirst hrun, hsession, hcalls.trans ?_⟩
      rw [markerCalls, markerCalls, List.append_assoc]
      rfl

/-! ## Packages are not torn -/

theorem start_kept {half : TxHalf} {s₀ s₁ : Session} {conn : Connection}
    (hdesc : half.txSocketDesc ≠ -1) (hconnected : half.txIsConnected = true)
    (hsize : s₀.sock.packageSize = p) (haccept : s₀.Establishes conn i s₁) (hp : 0 < p) :
    (start half s₁).Kept p i :=
  { desc := hdesc
    connected := hconnected
    fits := fun call hmem => by cases hmem
    sent_eq := rfl
    reframes := (haccept.reframes hsize hp).1
    received := by
      have hnone : (s₁.traffic i).received = [] := congrArg Traffic.received haccept.slot.2
      simp [start, hnone] }

/-- A connection whose buffers are allocated. -/
def bufferedConnection : Connection := { desc := 5, inBuf := true, readyBuf := true }

/-- The session after that connection was stored in slot `i`. -/
def withConnection (s : Session) (i : Fin maxClients) : Session :=
  { s.store i (acceptClient bufferedConnection (s.sock.clientList i))
      { received := [], delivered := [] } with
    accepted := s.accepted ++ [i] }

theorem establishes_withConnection {s : Session} (hfree : s.sock.freeSlot = some i) :
    s.Establishes bufferedConnection i (withConnection s i) := by
  refine { inBuf := rfl, readyBuf := rfl, accepts := rfl, free := hfree, step := ?_ }
  have hdesc : 0 ≤ bufferedConnection.desc := by decide
  simp only [Session.step, if_pos hdesc, hfree]
  rfl

/-- A listener with a callback, for packages of `p` bytes. -/
def callbackListener (p : ℕ) : Session :=
  .start (initRx (constructed 0 fun _ => .zero) p true (.success 4)).1

/-- The sending half while a connection is up. -/
def connectedHalf : TxHalf := { txSocketDesc := 3, txIsConnected := true }

/-- The last package handed out is the stretch of the stream it was cut from. -/
theorem FedTo.last {k : ℕ} (h : l.FedTo p (k + 1) i) :
    (l.sent.drop (k * p)).take p ∈ (l.session.traffic i).delivered := by
  obtain ⟨-, inBytes, readyBytes, hslot⟩ := h.kept.reframes
  have hcount := h.delivered.1
  obtain ⟨later, hlater⟩ := h.kept.received
  have hget := List.getElem?_eq_getElem (show k < (l.session.traffic i).delivered.length by omega)
  have hlength := h.received
  rw [Nat.add_mul, Nat.one_mul] at hlength
  have hpackage : ((l.session.traffic i).received.drop (k * p)).length = p := by
    rw [List.length_drop]
    omega
  rw [← hlater, List.drop_append_of_le_length (by omega), List.take_left' hpackage,
    ← List.take_of_length_le hpackage.le, ← hslot.framed.getElem?_eq hget]
  exact List.getElem_mem _

/-- A rest that makes up a package shows in a run. -/
theorem exists_torn {results : List ℤ} (hp : 0 < p) (hmax : p ≤ 65535)
    (hresults : ∀ sent ∈ results, -1 ≤ sent ∧ sent ≤ p) (haligned : ¬ Aligned p results) :
    ∃ l events, Run (StepOf (next p 0))
        (start connectedHalf (withConnection (callbackListener p) 0)) events l ∧
      l.results = results ∧ ¬ l.Untorn 0 := by
  have hestablishes : (callbackListener p).Establishes bufferedConnection 0
      (withConnection (callbackListener p) 0) := establishes_withConnection rfl
  have hstart : (start connectedHalf (withConnection (callbackListener p) 0)).Kept p 0 :=
    start_kept (by decide) rfl rfl hestablishes hp
  obtain ⟨l, events, hrun, hsession, hcalls⟩ :=
    run_markers (i := 0) hp hresults
      (start connectedHalf (withConnection (callbackListener p) 0))
  have hcalls : l.calls = markerCalls p results := hcalls
  have hkept := hstart.run hp hrun
  obtain ⟨whole, hsent, -, hlength⟩ := sent_split hkept.fits
  have hrest := (aligned_iff hkept.fits).not.mp (by rwa [hcalls, markerCalls_results])
  rw [not_lt] at hrest
  rw [← hkept.sent_eq] at hsent
  rw [hcalls] at hsent hrest
  have hfed : l.FedTo p 0 0 :=
    { kept := hkept
      callback := by rw [hsession]; rfl
      settled := by rw [hsession]; exact (hestablishes.reframes rfl hp).2
      received := by rw [hsession, Nat.zero_mul]; rfl }
  -- the whole packages are handed out, and the one made up by the rest
  have hwhole := Framed.length_flatten hlength
  have hmore : (whole.length + 1) * p ≤ l.sent.length := by
    rw [hsent, List.length_append, hwhole, Nat.add_mul, Nat.one_mul]
    omega
  obtain ⟨l', more, hrun', hfed', hsent', hcalls'⟩ := exists_fedTo hp hmax hfed hmore
  rw [hcalls] at hcalls'
  refine ⟨l', _, hrun.append hrun', by rw [Link.results, hcalls', markerCalls_results], ?_⟩
  intro huntorn
  have hmem := huntorn.mem hfed'.last
  rw [hsent', hsent, List.drop_left' hwhole, passed, hcalls', markerCalls_passed] at hmem
  exact torn_ne_marker hp hrest (List.eq_of_mem_replicate hmem)

/-- **Packages between two ends.**  For packages of `p` bytes and what the calls of `send` return,
the packages delivered are packages passed to `Tx` in the order passed, whatever the packages are
and however the receiver runs, exactly if from the first short `send` on fewer than `p` bytes are
accepted. -/
theorem untorn_iff (p : ℕ) (hp : 1 ≤ p) (hmax : p ≤ 65535) (results : List ℤ)
    (hresults : ∀ sent ∈ results, -1 ≤ sent ∧ sent ≤ p) :
    (∀ (conn : Connection) (i : Fin maxClients) (s₀ s₁ : Session) (half : TxHalf)
        (events : List LinkEvent) (l : Link), s₀.sock.packageSize = p →
      s₀.Establishes conn i s₁ → half.txSocketDesc ≠ -1 → half.txIsConnected = true →
        Run (StepOf (next p i)) (start half s₁) events l → l.results = results →
          l.Untorn i) ↔ Aligned p results := by
  constructor
  · intro hall
    by_contra haligned
    obtain ⟨l, events, hrun, heq, htorn⟩ := exists_torn hp hmax hresults haligned
    exact htorn (hall bufferedConnection 0 (callbackListener p) _ connectedHalf events l rfl
      (establishes_withConnection rfl) (by decide) rfl hrun heq)
  · rintro haligned conn i s₀ s₁ half events l hsize haccept hdesc hconnected hrun rfl
    exact ((start_kept hdesc hconnected hsize haccept hp).run hp hrun).untorn haligned

/-- Two packages of two bytes, the first one refused and the second one read byte by byte. -/
theorem untorn_refused :
    ∃ l, Run (StepOf (next 2 0)) (start connectedHalf Session.sampleSession)
        [.tx [1, 2] (-1), .tx [3, 4] 2, .listener (.recv 0 (some [3])), .listener (.move 0),
          .listener (.recv 0 (some [4])), .listener (.move 0), .listener .rx] l ∧
      (l.session.traffic 0).delivered = [[3, 4]] ∧ l.Untorn 0 := by
  have haccept : Session.sampleStart.Establishes bufferedConnection 0 Session.sampleSession :=
    { inBuf := rfl, readyBuf := rfl, accepts := rfl, free := rfl, step := rfl }
  have hrun : Run (StepOf (next 2 0)) (start connectedHalf Session.sampleSession)
      [.tx [1, 2] (-1), .tx [3, 4] 2, .listener (.recv 0 (some [3])), .listener (.move 0),
        .listener (.recv 0 (some [4])), .listener (.move 0), .listener .rx] _ :=
    run_iff_exec.mpr rfl
  have huntorn := (untorn_iff 2 (by decide) (by decide) [-1, 2] (by decide)).mpr (by decide)
  exact ⟨_, hrun, rfl, huntorn bufferedConnection 0 _ _ connectedHalf _ _ rfl haccept (by decide)
    rfl hrun rfl⟩

/-- `send` accepts one byte of the first package, and what is delivered is that byte and the
first byte of the second package. -/
theorem torn_short_send :
    ∃ l, Run (StepOf (next 2 0)) (start connectedHalf Session.sampleSession)
        [.tx [1, 2] 1, .tx [3, 4] 2, .listener (.recv 0 (some [1, 3, 4])), .listener (.move 0),
          .listener .rx] l ∧
      (l.session.traffic 0).delivered = [[1, 3]] ∧ ¬ l.Untorn 0 := by
  refine ⟨_, run_iff_exec.mpr rfl, rfl, ?_⟩
  decide

end Link

end XbeeAssignment.Socket
