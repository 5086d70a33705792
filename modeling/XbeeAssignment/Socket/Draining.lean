import XbeeAssignment.Socket.ListenerSafety

/-!
# Applications that receive everything

Without a callback the packages wait in the ready buffer, and no more are moved there
until `Rx` has taken the last of them.  What an application has to do to get everything
is to call `Rx` as often as a buffer has packages:

* From any state, that many calls empty the ready buffer, the next pass moves all whole
  packages of the in buffer, and as many calls again leave less than a package
  (`catches_up`).
* An application that does so after every pass gets what a callback gets, the packages
  the stream is cut into; and the whole stream is read, as long as the bytes that arrive
  between two passes fit into the in buffer beside an incomplete package
  (`receives_all`).

Both are about a single connection, as `accept` would store another one over it.
-/

namespace XbeeAssignment.Socket

open Transition Framing

namespace Session

/-! ## A single connection -/

/-- The socket is open, and slot `i` is the only one with a connection. -/
structure Alone (i : Fin maxClients) (s : Session) : Prop where
  listening : s.sock.rxSocketDesc ≠ -1
  closed : ∀ j ≠ i, (s.sock.clientList j).rawFlag ≠ 1 ∧ (s.sock.clientList j).readyFlag ≠ 1

/-- What is pending in slot `i`, the only one with a connection. -/
structure Serving (p : ℕ) (i : Fin maxClients) (s : Session) (inBytes readyBytes : List UInt8) :
    Prop where
  alone : s.Alone i
  packageSize : s.sock.packageSize = p
  slot : SlotInvariant p s.sock.callback (s.sock.clientList i) (s.traffic i) inBytes readyBytes

variable {p : ℕ} {i : Fin maxClients} {s s' : Session} {inBytes readyBytes : List UInt8}

theorem Alone.store (h : s.Alone i) (client : Client) (traffic : Traffic) :
    (s.store i client traffic).Alone i := by
  refine { listening := h.listening, closed := fun j hne => ?_ }
  rw [store_clientList_of_ne _ _ _ hne]
  exact h.closed j hne

/-- Only `accept` opens another slot. -/
theorem Alone.step (h : s.Alone i) {event : RxEvent} (hnone : event.accepts = false)
    (hstep : s.step event = .ok s') : s'.Alone i := by
  cases step_cases hstep with
  | refused _ | unready => exact h
  | accept haccepts _ =>
      rw [hnone] at haccepts
      cases haccepts
  | @recv j waiting client read hresult =>
      by_cases hsame : j = i
      · subst hsame
        exact h.store _ _
      · rw [recvClient_closed (h.closed j hsame).1] at hresult
        cases hresult
        rw [List.append_nil, store_self]
        exact h
  | @move j client packages hresult =>
      by_cases hsame : j = i
      · subst hsame
        exact h.store _ _
      · rw [moveClient_closed (h.closed j hsame).1] at hresult
        cases hresult
        rw [List.append_nil, store_self]
        exact h
  | @rx j client package hready _ =>
      by_cases hsame : j = i
      · subst hsame
        exact h.store _ _
      · exact absurd hready (h.closed j hsame).2

theorem Reframes.serving (h : s.Reframes p i) (halone : s.Alone i) :
    ∃ inBytes readyBytes, s.Serving p i inBytes readyBytes := by
  obtain ⟨hsize, inBytes, readyBytes, hslot⟩ := h
  exact ⟨inBytes, readyBytes, halone, hsize, hslot⟩

/-- The slot after an operation on it. -/
theorem Serving.store (h : s.Serving p i inBytes readyBytes) {client : Client} {traffic : Traffic}
    {inBytes' readyBytes' : List UInt8}
    (hslot : SlotInvariant p s.sock.callback client traffic inBytes' readyBytes') :
    (s.store i client traffic).Serving p i inBytes' readyBytes' := by
  refine { alone := h.alone.store client traffic, packageSize := h.packageSize, slot := ?_ }
  rw [store_clientList_self, store_traffic_self]
  exact hslot

/-! ## One step -/

theorem Serving.recv (h : s.Serving p i inBytes readyBytes) (waiting : Option (List UInt8)) :
    ∃ s', s.step (.recv i waiting) = .ok s' ∧
      s'.Serving p i (inBytes ++ (waiting.getD []).take (65535 - inBytes.length)) readyBytes ∧
      (s'.traffic i).received =
        (s.traffic i).received ++ (waiting.getD []).take (65535 - inBytes.length) := by
  obtain ⟨client, read, hresult, hslot⟩ := h.slot.recvClient waiting
  have hread := recvClient_read h.slot.holds.rawFlag hresult
  have hroom : (65535 - (inBytes.length : ℤ)).toNat = 65535 - inBytes.length := by omega
  rw [h.slot.holds.pEnd, h.slot.holds.pWrite, hroom] at hread
  subst hread
  refine ⟨_, ?_, h.store hslot, by rw [store_traffic_self]⟩
  simp only [step, hresult, finish]

/-- With an empty ready buffer the move leaves less than a package in the in buffer. -/
theorem Serving.move (hp : 0 < p) (h : s.Serving p i inBytes []) :
    ∃ s' inBytes' readyBytes', s.step (.move i) = .ok s' ∧
      s'.Serving p i inBytes' readyBytes' ∧ inBytes'.length < p ∧
      (s'.traffic i).received = (s.traffic i).received := by
  obtain ⟨client, packages, inBytes', readyBytes', hresult, hslot, hpending⟩ :=
    h.slot.moveClient hp
  refine ⟨_, inBytes', readyBytes', ?_, h.store hslot, ?_, by rw [store_traffic_self]⟩
  · simp only [step, h.packageSize, hresult, finish]
  · by_cases hcallback : s.sock.callback = true
    · exact hpending hcallback
    · -- without a callback the bytes change buffers
      have hcallback : s.sock.callback = false := by simpa using hcallback
      have hflag : (s.sock.clientList i).readyFlag = 0 := h.slot.readyFlag
      obtain ⟨moved, hmove, hholds, hmovedFlag⟩ := moveRaw_holds hp h.slot.holds
      obtain ⟨client', hraise, hholds', -⟩ := raiseReady_holds hholds (hmovedFlag.trans hflag)
      have hmoved : Socket.moveClient p s.sock.callback (s.sock.clientList i) =
          .ok (client', []) := by
        rw [Socket.moveClient, if_pos ⟨h.slot.holds.rawFlag, hflag⟩, hmove, hcallback]
        exact hraise
      cases hresult.symm.trans hmoved
      have hdiv := Nat.div_add_mod' inBytes.length p
      have hmod := Nat.mod_lt inBytes.length hp
      rw [← hslot.holds.inBytes_eq, hholds'.inBytes_eq, List.length_drop]
      omega

theorem Serving.rx (h : s.Serving p i inBytes readyBytes) :
    ∃ s', s.step .rx = .ok s' ∧ s'.Serving p i inBytes (readyBytes.drop p) ∧
      (s'.traffic i).received = (s.traffic i).received := by
  cases hready : s.sock.readySlot with
  | none =>
      -- no slot is ready, so slot `i` has no packages
      have hnone := hready
      rw [readySlot, if_neg h.alone.listening, List.find?_eq_none] at hnone
      have hflag := hnone i (List.mem_finRange i)
      rw [h.slot.readyFlag] at hflag
      have hempty : readyBytes = [] := by
        by_contra hne
        rw [if_neg hne] at hflag
        exact hflag (by decide)
      subst hempty
      exact ⟨s, by simp only [step, hready], by rwa [List.drop_nil], rfl⟩
  | some j =>
      have hflag := readyFlag_of_readySlot hready
      obtain rfl : j = i := by
        by_contra hne
        exact (h.alone.closed j hne).2 hflag
      obtain ⟨client, package, hresult, hslot⟩ := h.slot.rxClient hflag
      refine ⟨_, ?_, h.store hslot, by rw [store_traffic_self]⟩
      simp only [step, hready, h.packageSize, hresult, finish]

/-! ## Calls of `Rx` and passes -/

/-- So many calls of `Rx` as the ready buffer has packages, or more. -/
theorem Serving.drain {calls : ℕ} (h : s.Serving p i inBytes readyBytes)
    (hcalls : readyBytes.length ≤ calls * p) :
    ∃ s', Run (StepOf next) s (List.replicate calls .rx) s' ∧ s'.Serving p i inBytes [] ∧
      (s'.traffic i).received = (s.traffic i).received := by
  induction calls generalizing s readyBytes with
  | zero =>
      obtain rfl : readyBytes = [] := List.length_eq_zero_iff.mp (by omega)
      exact ⟨s, .nil s, h, rfl⟩
  | succ calls ih =>
      obtain ⟨m, hstep, hserving, hreceived⟩ := h.rx
      rw [Nat.succ_mul] at hcalls
      obtain ⟨s', hrun, hdrained, hreceived'⟩ := ih hserving (by rw [List.length_drop]; omega)
      exact ⟨s', .cons (stepOf_next.mpr hstep) hrun, hdrained, hreceived'.trans hreceived⟩

/-- A ready buffer is emptied by as many calls as a buffer has packages. -/
theorem Serving.length_readyBytes_le (h : s.Serving p i inBytes readyBytes) {calls : ℕ}
    (hcalls : 65535 / p ≤ calls) : readyBytes.length ≤ calls * p := by
  obtain ⟨k, hk⟩ := h.slot.holds.dvd
  have hle := h.slot.holds.length_readyBytes
  rcases Nat.eq_zero_or_pos p with rfl | hp
  · rw [hk, Nat.zero_mul]
    exact Nat.zero_le _
  · have hpackages : k ≤ 65535 / p := by
      rw [Nat.le_div_iff_mul_le hp, Nat.mul_comm]
      omega
    rw [hk, Nat.mul_comm]
    exact Nat.mul_le_mul_right p (hpackages.trans hcalls)

/-- The first loop of a pass, over slots without a connection. -/
theorem run_recvs_closed {slots : List (Fin maxClients)}
    (hclosed : ∀ j ∈ slots, (s.sock.clientList j).rawFlag ≠ 1)
    (waiting : Fin maxClients → Option (List UInt8)) :
    Run (StepOf next) s (slots.map fun j => .recv j (waiting j)) s := by
  induction slots with
  | nil => exact .nil s
  | cons j slots ih =>
      have hstep := step_recv_closed (hclosed j (List.mem_cons_self ..)) (waiting j)
      exact .cons (stepOf_next.mpr hstep) (ih fun k hk => hclosed k (List.mem_cons_of_mem _ hk))

/-- The slots before and after one of them. -/
theorem exists_finRange_eq (i : Fin maxClients) :
    ∃ before after, List.finRange maxClients = before ++ i :: after ∧
      (∀ j ∈ before, j ≠ i) ∧ ∀ j ∈ after, j ≠ i := by
  obtain ⟨before, after, hsplit⟩ := List.append_of_mem (List.mem_finRange i)
  have hnodup := List.nodup_finRange maxClients
  rw [hsplit, List.nodup_append] at hnodup
  obtain ⟨-, hrest, hdisjoint⟩ := hnodup
  refine ⟨before, after, hsplit, fun j hj => hdisjoint j hj i (List.mem_cons_self ..), ?_⟩
  rintro j hj rfl
  exact (List.nodup_cons.mp hrest).1 hj

/-- A pass reads from slot `i`, as far as there is room, and moves what it has read. -/
theorem Serving.pass (hp : 0 < p) (h : s.Serving p i inBytes [])
    (waiting : Fin maxClients → Option (List UInt8)) :
    ∃ s' inBytes' readyBytes', Run (StepOf next) s (RxCall.pass noConnection waiting).events s' ∧
      s'.Serving p i inBytes' readyBytes' ∧ inBytes'.length < p ∧
      (s'.traffic i).received =
        (s.traffic i).received ++ ((waiting i).getD []).take (65535 - inBytes.length) := by
  obtain ⟨before, after, hslots, hbefore, hafter⟩ := exists_finRange_eq i
  obtain ⟨m, hrecv, hread, hreceived⟩ := h.recv (waiting i)
  obtain ⟨s', inBytes', readyBytes', hmove, hmoved, hpending, hreceived'⟩ := hread.move hp
  refine ⟨s', inBytes', readyBytes', ?_, hmoved, hpending, hreceived'.trans hreceived⟩
  rw [RxCall.events, hslots, List.map_append, List.map_append, List.map_cons, List.map_cons]
  refine Run.append (m := m) (.cons (stepOf_next.mpr (step_noConnection s)) ?_) ?_
  · -- the other slots are not read from
    refine (run_recvs_closed (fun j hj => (h.alone.closed j (hbefore j hj)).1) waiting).append ?_
    exact .cons (stepOf_next.mpr hrecv)
      (run_recvs_closed (fun j hj => (hread.alone.closed j (hafter j hj)).1) waiting)
  · refine (run_move_closed fun j hj => (hread.alone.closed j (hbefore j hj)).1).append ?_
    exact .cons (stepOf_next.mpr hmove)
      (run_move_closed fun j hj => (hmoved.alone.closed j (hafter j hj)).1)

/-- What was handed out when less than a package is left. -/
theorem Serving.delivered_eq (h : s.Serving p i inBytes []) (hpending : inBytes.length < p) :
    (s.traffic i).delivered = cut p (s.traffic i).received :=
  h.slot.framed.eq_cut hpending

/-! ## Catching up -/

theorem Alone.run (h : s.Alone i) {events : List RxEvent}
    (hnone : ∀ event ∈ events, event.accepts = false) (hrun : Run (StepOf next) s events s') :
    s'.Alone i := by
  have hguarded : Run (Guarded (fun _ event => event.accepts = false) (StepOf next)) s events s' :=
    hrun.guarded fun event hevent _ => hnone event hevent
  refine hguarded.invariant ?_ h
  intro s event t halone hstep
  exact halone.step hstep.1 (stepOf_next.mp hstep.2)

/-- The slots that had no connection before still have none. -/
theorem Establishes.alone {s₀ s₁ : Session} {conn : Connection} (h : s₀.Establishes conn i s₁)
    (halone : s₀.Alone i) : s₁.Alone i := by
  cases step_cases h.step with
  | refused hrefused => exact absurd h.accepts (by simp [hrefused])
  | @accept _ j _ hfree =>
      obtain rfl : j = i := Option.some.inj (hfree.symm.trans h.free)
      exact ⟨halone.listening, (halone.store _ ⟨[], []⟩).closed⟩

/-- **Catching up.**  Whatever a single connection has sent and the application has fetched, as many
calls of `Rx` as a buffer has packages, a pass and as many calls again hand out everything received
by then but an incomplete package. -/
theorem catches_up (p : ℕ) (hp : 1 ≤ p) (conn : Connection) (i : Fin maxClients)
    (s₀ s₁ s : Session) (hsize : s₀.sock.packageSize = p) (halone : s₀.Alone i)
    (haccept : s₀.Establishes conn i s₁) (events : List RxEvent)
    (hnone : ∀ event ∈ events, event.accepts = false) (hrun : Run (StepOf next) s₁ events s)
    (before after : ℕ) (hbefore : 65535 / p ≤ before) (hafter : 65535 / p ≤ after)
    (waiting : Fin maxClients → Option (List UInt8)) :
    ∃ s', Run (StepOf next) s (List.replicate before .rx ++
        (RxCall.pass noConnection waiting).events ++ List.replicate after .rx) s' ∧
      (s'.traffic i).delivered = cut p (s'.traffic i).received ∧
      (s.traffic i).received <+: (s'.traffic i).received := by
  have hguarded : Run (Guarded (KeepsSlot i) (StepOf next)) s₁ events s :=
    hrun.guarded fun event hevent m haccepts => by
      rw [hnone event hevent] at haccepts
      cases haccepts
  have hreframes := (haccept.reframes hsize hp).1.run hp hguarded
  obtain ⟨inBytes, readyBytes, hserving⟩ :=
    hreframes.serving ((haccept.alone halone).run hnone hrun)
  obtain ⟨m, hdrain, hdrained, hreceived⟩ :=
    hserving.drain (hserving.length_readyBytes_le hbefore)
  obtain ⟨t, inBytes', readyBytes', hpass, hpassed, hpending, hreceived'⟩ :=
    hdrained.pass hp waiting
  obtain ⟨s', hdrain', hdrained', hreceived''⟩ :=
    hpassed.drain (hpassed.length_readyBytes_le hafter)
  refine ⟨s', (hdrain.append hpass).append hdrain', hdrained'.delivered_eq hpending, ?_⟩
  rw [hreceived'', hreceived', hreceived]
  exact List.prefix_append ..

theorem sampleStart_alone : sampleStart.Alone 0 :=
  { listening := show (4 : ℤ) ≠ -1 by decide
    closed := fun _ _ => ⟨show (0 : ℤ) ≠ 1 by decide, show (0 : ℤ) ≠ 1 by decide⟩ }

theorem sampleStart_establishes :
    sampleStart.Establishes { desc := 5, inBuf := true, readyBuf := true } 0 sampleSession :=
  { inBuf := rfl, readyBuf := rfl, accepts := rfl, free := rfl, step := rfl }

/-- Three bytes are read and a package is moved, but not fetched. -/
theorem catches_up_sample :
    ∃ s s', Run (StepOf next) sampleSession [.recv 0 (some [1, 2, 3]), .move 0] s ∧
      Run (StepOf next) s (List.replicate 32767 .rx ++
        (RxCall.pass noConnection fun _ => some [4]).events ++ List.replicate 32767 .rx) s' ∧
      (s'.traffic 0).delivered = cut 2 (s'.traffic 0).received := by
  have hrun : Run (StepOf next) sampleSession [.recv 0 (some [1, 2, 3]), .move 0] _ :=
    run_iff_exec.mpr rfl
  obtain ⟨s', hcaught, hdelivered, -⟩ :=
    catches_up 2 (by decide) _ 0 _ _ _ rfl sampleStart_alone sampleStart_establishes
      [.recv 0 (some [1, 2, 3]), .move 0] (by decide) hrun 32767 32767 (by decide) (by decide)
      fun _ => some [4]
  exact ⟨_, s', hrun, hcaught, hdelivered⟩

/-! ## Receiving everything -/

end Session

/-- A pass that finds no further connection, and calls of `Rx` after it. -/
structure Round where
  waiting : Fin maxClients → Option (List UInt8)
  calls : ℕ

def Round.events (round : Round) : List RxEvent :=
  (RxCall.pass Session.noConnection round.waiting).events ++ List.replicate round.calls .rx

/-- The bytes `recv` finds in slot `i` in the rounds. -/
def arriving (i : Fin maxClients) (rounds : List Round) : List UInt8 :=
  rounds.flatMap fun round => (round.waiting i).getD []

namespace Session

variable {p : ℕ} {i : Fin maxClients} {s s' : Session} {inBytes readyBytes : List UInt8}

theorem callback_of_run {events : List RxEvent} (hrun : Run (StepOf next) s events s') :
    s'.sock.callback = s.sock.callback := by
  induction hrun with
  | nil _ => rfl
  | cons hnext _ ih => rw [ih, (step_settings (stepOf_next.mp hnext)).2]

/-- After a round, less than a package is pending again. -/
theorem Serving.round (hp : 0 < p) (h : s.Serving p i inBytes []) (hpending : inBytes.length < p)
    (round : Round) (hcalls : s.sock.callback = true ∨ 65535 / p ≤ round.calls) :
    ∃ s' inBytes', Run (StepOf next) s round.events s' ∧ s'.Serving p i inBytes' [] ∧
      inBytes'.length < p ∧ s'.sock.callback = s.sock.callback ∧
      (((round.waiting i).getD []).length + p ≤ 65536 →
        (s'.traffic i).received = (s.traffic i).received ++ (round.waiting i).getD []) := by
  obtain ⟨m, inBytes', readyBytes', hpass, hpassed, hpending', hreceived⟩ :=
    h.pass hp round.waiting
  have hlength : readyBytes'.length ≤ round.calls * p := by
    rcases hcalls with hcallback | hcalls
    · rw [hpassed.slot.handed_out ((callback_of_run hpass).trans hcallback)]
      exact Nat.zero_le _
    · exact hpassed.length_readyBytes_le hcalls
  obtain ⟨s', hdrain, hdrained, hreceived'⟩ := hpassed.drain hlength
  have hrun := hpass.append hdrain
  refine ⟨s', inBytes', hrun, hdrained, hpending', callback_of_run hrun, fun hfits => ?_⟩
  rw [hreceived', hreceived, List.take_of_length_le (by omega)]

theorem Serving.rounds (hp : 0 < p) (h : s.Serving p i inBytes []) (hpending : inBytes.length < p)
    {rounds : List Round}
    (hcalls : s.sock.callback = true ∨ ∀ round ∈ rounds, 65535 / p ≤ round.calls) :
    ∃ s' inBytes', Run (StepOf next) s (rounds.flatMap Round.events) s' ∧
      s'.Serving p i inBytes' [] ∧ inBytes'.length < p ∧
      ((∀ round ∈ rounds, ((round.waiting i).getD []).length + p ≤ 65536) →
        (s'.traffic i).received = (s.traffic i).received ++ arriving i rounds) := by
  induction rounds generalizing s inBytes with
  | nil => exact ⟨s, inBytes, .nil s, h, hpending, fun _ => (List.append_nil _).symm⟩
  | cons round rounds ih =>
      obtain ⟨m, inBytes', hround, hserving, hpending', hcallback, hreceived⟩ :=
        h.round hp hpending round (hcalls.imp_right fun hall => hall round List.mem_cons_self)
      have hrest : m.sock.callback = true ∨ ∀ round ∈ rounds, 65535 / p ≤ round.calls := by
        rw [hcallback]
        exact hcalls.imp_right fun hall other hother => hall other (List.mem_cons_of_mem _ hother)
      obtain ⟨s', inBytes'', hrun, hserving', hpending'', hreceived'⟩ := ih hserving hpending' hrest
      refine ⟨s', inBytes'', hround.append hrun, hserving', hpending'', fun hfits => ?_⟩
      rw [hreceived' fun other hother => hfits other (List.mem_cons_of_mem _ hother),
        hreceived (hfits round List.mem_cons_self), List.append_assoc]
      rfl

/-- **Receiving everything.**  With a callback, or as many calls of `Rx` after every pass as a
buffer has packages, the listener of a single connection makes any number of passes, after which the
packages the bytes received are cut into were handed out.  If no more bytes arrive between two
passes than fit into a buffer beside an incomplete package, these are all bytes that arrived. -/
theorem receives_all (p : ℕ) (hp : 1 ≤ p) (conn : Connection) (i : Fin maxClients)
    (s₀ s₁ : Session) (hsize : s₀.sock.packageSize = p) (halone : s₀.Alone i)
    (haccept : s₀.Establishes conn i s₁) (rounds : List Round)
    (hcalls : s₀.sock.callback = true ∨ ∀ round ∈ rounds, 65535 / p ≤ round.calls) :
    ∃ s, Run (StepOf next) s₁ (rounds.flatMap Round.events) s ∧
      (s.traffic i).delivered = cut p (s.traffic i).received ∧
      ((∀ round ∈ rounds, ((round.waiting i).getD []).length + p ≤ 65536) →
        (s.traffic i).received = arriving i rounds) := by
  obtain ⟨hclient, htraffic⟩ := haccept.slot
  obtain ⟨hholds, hflag⟩ :=
    acceptClient_holds p haccept.inBuf haccept.readyBuf (s₀.sock.clientList i)
  rw [← hclient] at hholds hflag
  have hslot : SlotInvariant p s₁.sock.callback (s₁.sock.clientList i) (s₁.traffic i) [] [] := by
    refine { holds := hholds, readyFlag := hflag, handed_out := fun _ => rfl, framed := ?_ }
    rw [htraffic]
    exact Framed.empty p
  have hserving : s₁.Serving p i [] [] :=
    { alone := haccept.alone halone
      packageSize := (step_settings haccept.step).1.trans hsize, slot := hslot }
  rw [← (step_settings haccept.step).2] at hcalls
  obtain ⟨s, inBytes, hrun, hserving', hpending, hreceived⟩ := hserving.rounds hp hp hcalls
  refine ⟨s, hrun, hserving'.delivered_eq hpending, fun hfits => ?_⟩
  rw [hreceived hfits, htraffic]
  rfl

/-- Two packages of two bytes, which arrive as three bytes and one. -/
theorem receives_all_sample :
    ∃ s, Run (StepOf next) sampleSession
        ([(⟨fun _ => some [1, 2, 3], 32767⟩ : Round), ⟨fun _ => some [4], 32767⟩].flatMap
          Round.events) s ∧
      (s.traffic 0).delivered = [[1, 2], [3, 4]] := by
  obtain ⟨s, hrun, hdelivered, hreceived⟩ :=
    receives_all 2 (by decide) _ 0 _ _ rfl sampleStart_alone sampleStart_establishes
      [⟨fun _ => some [1, 2, 3], 32767⟩, ⟨fun _ => some [4], 32767⟩]
      (.inr (List.forall_mem_cons.mpr ⟨le_rfl, List.forall_mem_singleton.mpr le_rfl⟩))
  rw [hreceived (List.forall_mem_cons.mpr ⟨by decide, List.forall_mem_singleton.mpr (by decide)⟩)]
    at hdelivered
  exact ⟨s, hrun, hdelivered⟩

end Session

end XbeeAssignment.Socket
