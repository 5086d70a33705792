import XbeeAssignment.Socket.Reframing
import XbeeAssignment.Socket.Slots

/-!
# When the listener is memory-safe

`InitRx` stores the package size unchecked, and of the list of clients it sets
`Flag` only.  The listener tests `RawFlag`, which holds whatever the memory of the
object held.  So it is safe in every run exactly if no slot has `RawFlag` 1 to
start with and the package size is positive, or so far below zero that both
divisions by it round to zero (`listenerSafe_iff`).

Safety is an invariant of the slots (`Guarded`): one whose `RawFlag` is 1 was
accepted, and both its buffers hold what the pointers say.  The number of ready
bytes is a multiple of the package size, so that for a package size below -65535
there are none.

For the other package sizes a first connection is enough, even one that never sends
anything: zero is divided by in the first pass, and a negative size moves
`NumFit` packages out of an empty buffer, after which the callback loop counts
down, or the write pointer lies before the buffer.
-/

namespace XbeeAssignment.Socket

open Memory Transition Framing

/-! ## Safety -/

/-- Package sizes with which the move stays in the buffers. -/
def SafeSize (packageSize : ℤ) : Prop :=
  1 ≤ packageSize ∨ packageSize < -65535

instance (packageSize : ℤ) : Decidable (SafeSize packageSize) :=
  inferInstanceAs (Decidable (_ ∨ _))

namespace Session

/-- The slot the listener reads from or moves, if its `RawFlag` lets it. -/
def touched (s : Session) : RxEvent → Option (Fin maxClients)
  | .recv i _ | .move i => if (s.sock.clientList i).rawFlag = 1 then some i else none
  | .accept _ | .rx => none

/-- The step is free of faults and touches only a slot that was accepted. -/
structure SafeStep (s : Session) (event : RxEvent) : Prop where
  no_fault : ∀ i fault, s.step event ≠ .error (.fault i fault)
  touches_accepted : ∀ i, s.touched event = some i → i ∈ s.accepted

/-- A connection whose buffers are not both allocated is not stored over one that is read from. -/
def Allocates (s : Session) : RxEvent → Prop
  | .accept conn =>
      0 ≤ conn.desc → ¬ (conn.inBuf ∧ conn.readyBuf) →
        ∀ i, s.sock.freeSlot = some i → (s.sock.clientList i).rawFlag ≠ 1
  | _ => True

/-- Every step of the listener is safe, in all its passes, with calls of `Rx` between them. -/
def ListenerSafe (s₀ : Session) : Prop :=
  ∀ (calls : List RxCall) (before : List RxEvent) (event : RxEvent) (s : Session),
    before ++ [event] <+: calls.flatMap RxCall.events →
      Run (Guarded Allocates (StepOf next)) s₀ before s → event ≠ .rx → s.SafeStep event

end Session

/-! ## Slots that are read from -/

/-- Both buffers hold what the pointers say, whole packages in the ready buffer, and `ReadyFlag`
says whether there are any. -/
def Client.Sound (size : ℕ) (client : Client) : Prop :=
  ∃ inBytes readyBytes, client.Holds size inBytes readyBytes ∧
    client.readyFlag = if readyBytes = [] then 0 else 1

section

variable {packageSize : ℤ} {client client' : Client}

theorem acceptClient_sound (size : ℕ) {conn : Connection} (hbufs : conn.inBuf ∧ conn.readyBuf)
    (client : Client) : (acceptClient conn client).Sound size := by
  obtain ⟨hholds, hflag⟩ := acceptClient_holds size hbufs.1 hbufs.2 client
  exact ⟨[], [], hholds, hflag⟩

theorem acceptClient_rawFlag {conn : Connection} (hbufs : ¬ (conn.inBuf ∧ conn.readyBuf))
    (client : Client) : (acceptClient conn client).rawFlag = client.rawFlag := by
  rw [acceptClient, if_neg hbufs]

theorem recvClient_sound {size : ℕ} (h : client.Sound size) (waiting : Option (List UInt8)) :
    ∃ client' read, recvClient waiting client = .ok (client', read) ∧ client'.Sound size := by
  obtain ⟨inBytes, readyBytes, hholds, hflag⟩ := h
  obtain ⟨client', read, hrecv, hholds', hflag'⟩ := recvClient_holds hholds waiting
  exact ⟨client', read, hrecv, inBytes ++ read, readyBytes, hholds', hflag'.trans hflag⟩

/-- A negative package size that is larger than a buffer leaves room for nothing. -/
theorem numPackages_of_lt {rawSize : ℤ} (hsize : packageSize < -65535) (hnonneg : 0 ≤ rawSize)
    (hle : rawSize ≤ 65535) : numPackages packageSize rawSize = 0 := by
  have hzero : ∀ n : ℤ, 0 ≤ n → n ≤ 65535 → n.tdiv packageSize = 0 := by
    intro n hn hn'
    rw [← neg_neg packageSize, Int.tdiv_neg, Int.tdiv_eq_zero_of_lt hn (by omega), neg_zero]
  rw [numPackages, hzero rawSize hnonneg hle, hzero 65535 (by decide) (by decide), min_self]

/-- Nothing is ready for a package size that is larger than a buffer. -/
theorem readyBytes_eq_nil {size : ℕ} {inBytes readyBytes : List UInt8}
    (hholds : client.Holds size inBytes readyBytes) (hsize : 65535 < size) : readyBytes = [] := by
  have hle := hholds.length_readyBytes
  exact List.length_eq_zero_iff.mp (Nat.eq_zero_of_dvd_of_lt hholds.dvd (by omega))

theorem moveClient_sound (hsize : SafeSize packageSize) (h : client.Sound packageSize.natAbs)
    (callback : Bool) :
    ∃ client' packages, moveClient packageSize callback client = .ok (client', packages) ∧
      client'.Sound packageSize.natAbs := by
  obtain ⟨inBytes, readyBytes, hholds, hflag⟩ := h
  by_cases hempty : readyBytes = []
  · subst hempty
    have hflag : client.readyFlag = 0 := hflag
    have hopen : client.rawFlag = 1 ∧ client.readyFlag = 0 := ⟨hholds.rawFlag, hflag⟩
    rcases hsize with hpos | hneg
    · obtain ⟨p, rfl⟩ := Int.eq_ofNat_of_zero_le (show 0 ≤ packageSize by omega)
      rw [Int.natAbs_natCast] at hholds ⊢
      obtain ⟨moved, hmove, hmoved, hmovedFlag⟩ := moveRaw_holds (by omega) hholds
      rw [hflag] at hmovedFlag
      cases callback with
      | false =>
          obtain ⟨client', hraise, hholds', hflag'⟩ := raiseReady_holds hmoved hmovedFlag
          refine ⟨client', [], ?_, _, _, hholds', hflag'⟩
          rw [moveClient, if_pos hopen, hmove]
          exact hraise
      | true =>
          obtain ⟨client', packages, hraise, hholds', hflag', -, -⟩ :=
            raiseReady_callback_holds (by omega) hmoved hmovedFlag
          refine ⟨client', packages, ?_, _, [], hholds', hflag'⟩
          rw [moveClient, if_pos hopen, hmove]
          exact hraise
    · -- nothing is moved, and nothing is ready
      have hnum : numPackages packageSize client.pWrite = 0 := by
        apply numPackages_of_lt hneg
        · rw [hholds.pWrite]
          exact Int.natCast_nonneg _
        · rw [hholds.pWrite]
          exact_mod_cast hholds.length_inBytes
      have hready : ¬ 0 < client.pReady := by
        rw [hholds.pReady]
        simp
      refine ⟨client, [], ?_, inBytes, [], hholds, hflag⟩
      rw [moveClient, if_pos hopen, moveRaw, if_neg (by omega), if_pos hnum]
      exact if_neg hready
  · have hclosed : ¬ (client.rawFlag = 1 ∧ client.readyFlag = 0) := by
      simp [hflag, hempty]
    exact ⟨client, [], by rw [moveClient, if_neg hclosed], inBytes, readyBytes, hholds, hflag⟩

theorem rxClient_sound (hsize : SafeSize packageSize) (h : client.Sound packageSize.natAbs)
    {package : List UInt8} (hready : client.readyFlag = 1)
    (hrx : rxClient packageSize client = .ok (client', package)) :
    client'.Sound packageSize.natAbs := by
  obtain ⟨inBytes, readyBytes, hholds, hflag⟩ := h
  have hne : readyBytes ≠ [] := by
    intro hempty
    rw [hflag, if_pos hempty] at hready
    cases hready
  rcases hsize with hpos | hneg
  · obtain ⟨p, rfl⟩ := Int.eq_ofNat_of_zero_le (show 0 ≤ packageSize by omega)
    rw [Int.natAbs_natCast] at hholds ⊢
    obtain ⟨client'', hresult, hholds', -, hflag'⟩ := rxClient_holds hholds hne hready
    cases hrx.symm.trans hresult
    exact ⟨_, _, hholds', hflag'⟩
  · exact absurd (readyBytes_eq_nil hholds (by omega)) hne

/-- A slot that is not read from is left alone. -/
theorem recvClient_closed (hclosed : client.rawFlag ≠ 1) (waiting : Option (List UInt8)) :
    recvClient waiting client = .ok (client, []) := by
  rw [recvClient, if_neg hclosed]

theorem moveClient_closed (hclosed : client.rawFlag ≠ 1) (packageSize : ℤ) (callback : Bool) :
    moveClient packageSize callback client = .ok (client, []) := by
  rw [moveClient, if_neg fun hopen => hclosed hopen.1]

end

/-! ## Safe package sizes -/

namespace Session

variable {packageSize : ℤ} {s s' : Session} {event : RxEvent}

/-- The slots that are read from were accepted and are sound. -/
structure SoundSlots (packageSize : ℤ) (s : Session) : Prop where
  size_eq : s.sock.packageSize = packageSize
  accepted : ∀ i, (s.sock.clientList i).rawFlag = 1 → i ∈ s.accepted
  sound : ∀ i, (s.sock.clientList i).rawFlag = 1 →
    (s.sock.clientList i).Sound packageSize.natAbs

/-- An operation that turns the entry of slot `i` into one that is sound if it is read from. -/
theorem SoundSlots.store (h : s.SoundSlots packageSize) {i : Fin maxClients} {client : Client}
    (traffic : Traffic) (hflags : (s.sock.clientList i).SameFlags client)
    (hsound : (s.sock.clientList i).rawFlag = 1 → client.Sound packageSize.natAbs) :
    (s.store i client traffic).SoundSlots packageSize := by
  refine { size_eq := h.size_eq, accepted := fun j hraw => ?_, sound := fun j hraw => ?_ }
  · by_cases hsame : j = i
    · subst hsame
      rw [store_clientList_self, hflags.rawFlag] at hraw
      exact h.accepted j hraw
    · rw [store_clientList_of_ne _ _ _ hsame] at hraw
      exact h.accepted j hraw
  · by_cases hsame : j = i
    · subst hsame
      rw [store_clientList_self] at hraw ⊢
      exact hsound (hflags.rawFlag.symm.trans hraw)
    · rw [store_clientList_of_ne _ _ _ hsame] at hraw ⊢
      exact h.sound j hraw

theorem SoundSlots.step (hsize : SafeSize packageSize) (h : s.SoundSlots packageSize)
    (hallocates : s.Allocates event) (hstep : s.step event = .ok s') :
    s'.SoundSlots packageSize := by
  cases step_cases hstep with
  | refused _ | unready => exact h
  | @accept conn i haccepts hfree =>
      refine { size_eq := h.size_eq, accepted := fun j hraw => ?_,
               sound := fun j hraw => ?_ }
      · by_cases hsame : j = i
        · exact List.mem_append_right _ (List.mem_singleton.mpr hsame)
        · rw [store_clientList_of_ne _ _ _ hsame] at hraw
          exact List.mem_append_left _ (h.accepted j hraw)
      · by_cases hsame : j = i
        · subst hsame
          rw [store_clientList_self] at hraw ⊢
          by_cases hbufs : conn.inBuf ∧ conn.readyBuf
          · exact acceptClient_sound _ hbufs _
          · -- the entry keeps its `RawFlag`, and it was not `1`
            rw [acceptClient_rawFlag hbufs] at hraw
            exact absurd hraw (hallocates (by simpa [RxEvent.accepts] using haccepts) hbufs j hfree)
        · rw [store_clientList_of_ne _ _ _ hsame] at hraw ⊢
          exact h.sound j hraw
  | @recv i waiting client read hrecv =>
      refine h.store _ (recvClient_flags hrecv) fun hraw => ?_
      obtain ⟨client', read', hresult, hsound⟩ := recvClient_sound (h.sound i hraw) waiting
      cases hrecv.symm.trans hresult
      exact hsound
  | @move i client packages hmove =>
      refine h.store _ (moveClient_flags hmove) fun hraw => ?_
      rw [h.size_eq] at hmove
      obtain ⟨client', packages', hresult, hsound⟩ :=
        moveClient_sound hsize (h.sound i hraw) s.sock.callback
      cases hmove.symm.trans hresult
      exact hsound
  | @rx i client package hready hrx =>
      refine h.store _ (rxClient_flags hrx) fun hraw => ?_
      rw [h.size_eq] at hrx
      exact rxClient_sound hsize (h.sound i hraw) hready hrx

theorem SoundSlots.safeStep (hsize : SafeSize packageSize) (h : s.SoundSlots packageSize)
    (hlistener : event ≠ .rx) : s.SafeStep event := by
  refine { no_fault := fun i fault hfault => ?_, touches_accepted := fun i htouched => ?_ }
  · cases event with
    | rx => exact hlistener rfl
    | accept conn =>
        simp only [Session.step] at hfault
        split at hfault
        · split at hfault <;> cases hfault
        · cases hfault
    | recv j waiting =>
        simp only [Session.step] at hfault
        obtain ⟨rfl, hresult⟩ := finish_eq_fault hfault
        by_cases hraw : (s.sock.clientList j).rawFlag = 1
        · obtain ⟨_, _, hok, -⟩ := recvClient_sound (h.sound j hraw) waiting
          cases hresult.symm.trans hok
        · cases hresult.symm.trans (recvClient_closed hraw waiting)
    | move j =>
        simp only [Session.step] at hfault
        obtain ⟨rfl, hresult⟩ := finish_eq_fault hfault
        rw [h.size_eq] at hresult
        by_cases hraw : (s.sock.clientList j).rawFlag = 1
        · obtain ⟨_, _, hok, -⟩ := moveClient_sound hsize (h.sound j hraw) s.sock.callback
          cases hresult.symm.trans hok
        · cases hresult.symm.trans (moveClient_closed hraw ..)
  · unfold touched at htouched
    split at htouched
    · split at htouched <;> cases htouched
      next hraw => exact h.accepted i hraw
    · split at htouched <;> cases htouched
      next hraw => exact h.accepted i hraw
    · cases htouched
    · cases htouched

end Session

/-! ## Unsafe package sizes -/

section

variable {packageSize : ℤ} {client : Client}

theorem recvClient_none {size : ℕ} {readyBytes : List UInt8}
    (hholds : client.Holds size [] readyBytes) (hready : client.readyFlag = 0) :
    ∃ client', recvClient none client = .ok (client', []) ∧
      client'.Holds size [] readyBytes ∧ client'.readyFlag = 0 := by
  obtain ⟨client', read, hrecv, hholds', hflag⟩ := recvClient_holds hholds none
  have hnothing : read = [] := by
    rw [recvClient_read hholds.rawFlag hrecv]
    exact List.take_nil
  subst hnothing
  exact ⟨client', hrecv, hholds', hflag.trans hready⟩

theorem moveClient_zero (hraw : client.rawFlag = 1) (hready : client.readyFlag = 0)
    (callback : Bool) : moveClient 0 callback client = .error .divisionByZero := by
  rw [moveClient, if_pos ⟨hraw, hready⟩, moveRaw, if_pos rfl]
  rfl

/-- The bytes `NumFit` packages of a negative size make out of an empty in buffer. -/
theorem packSize_neg (hlow : -65535 ≤ packageSize) (hhigh : packageSize < 0) :
    numPackages packageSize 0 ≠ 0 ∧ 0 < numPackages packageSize 0 * packageSize ∧
      numPackages packageSize 0 * packageSize ≤ 65535 := by
  obtain ⟨q, rfl⟩ : ∃ q, packageSize = -q := ⟨-packageSize, (neg_neg _).symm⟩
  have hfit : Int.tdiv 65535 (-q) = -(65535 / q) := by
    rw [Int.tdiv_neg, Int.tdiv_eq_ediv_of_nonneg (by decide)]
  have hpos : 0 < 65535 / q := Int.le_ediv_of_mul_le (by omega) (by omega)
  have hnum : numPackages (-q) 0 = -(65535 / q) := by
    rw [numPackages, hfit, Int.zero_tdiv]
    exact min_eq_right (by omega)
  rw [hnum, neg_mul_neg]
  exact ⟨by omega, Int.mul_pos hpos (by omega), Int.ediv_mul_le 65535 (by omega)⟩

/-- A negative size that fits into a buffer moves the write pointer before the buffer. -/
theorem moveRaw_neg (hlow : -65535 ≤ packageSize) (hhigh : packageSize < 0) {size : ℕ}
    (hholds : client.Holds size [] []) :
    ∃ moved readyBuf, moveRaw packageSize client = .ok moved ∧ moved.pReadyBuf = some readyBuf ∧
      moved.rawFlag = 1 ∧ moved.pWrite < 0 ∧ 0 < moved.pReady := by
  obtain ⟨hnum, hpos, hle⟩ := packSize_neg hlow hhigh
  obtain ⟨inBuf, hinBuf, -⟩ := hholds.inBuf
  obtain ⟨readyBuf, hreadyBuf, -⟩ := hholds.readyBuf
  have hwrite : client.pWrite = 0 := hholds.pWrite
  have hready : client.pReady = 0 := hholds.pReady
  generalize hpack : numPackages packageSize 0 * packageSize = packSize at hpos hle
  -- nothing remains that would be moved down
  have hrange : InRange 0 packSize ∧ InRange 0 packSize ∧
      (0 < 0 - packSize → InRange packSize (0 - packSize)) := by
    refine ⟨⟨?_, ?_, ?_⟩, ⟨?_, ?_, ?_⟩, fun hremain => ?_⟩ <;> omega
  refine ⟨{ client with
      pReadyBuf := some (blit readyBuf (0 : ℤ).toNat (slice inBuf 0 packSize.toNat))
      pReady := 0 + packSize
      pInBuf := some (blit inBuf 0 (slice inBuf packSize.toNat (0 - packSize).toNat))
      pWrite := 0 - packSize }, _, ?_, rfl, hholds.rawFlag, ?_, ?_⟩
  · unfold moveRaw
    rw [if_neg (by omega), hwrite, if_neg hnum, hinBuf, hreadyBuf]
    simp only [hpack, hready, if_pos hrange]
  · show 0 - packSize < 0
    omega
  · show 0 < 0 + packSize
    omega

/-- It also makes the callback loop count down. -/
theorem moveClient_neg (hlow : -65535 ≤ packageSize) (hhigh : packageSize < 0) {size : ℕ}
    (hholds : client.Holds size [] []) (hready : client.readyFlag = 0) :
    moveClient packageSize true client = .error .endlessLoop ∧
      ∃ client', moveClient packageSize false client = .ok (client', []) ∧
        client'.rawFlag = 1 ∧ client'.pWrite < 0 := by
  have hopen : client.rawFlag = 1 ∧ client.readyFlag = 0 := ⟨hholds.rawFlag, hready⟩
  obtain ⟨moved, readyBuf, hmove, hreadyBuf, hraw, hwrite, hmoved⟩ :=
    moveRaw_neg hlow hhigh hholds
  constructor
  · rw [moveClient, if_pos hopen, hmove]
    simp only [Except.bind, raiseReady, if_pos hmoved, if_pos, hreadyBuf, if_neg hhigh.not_gt]
  · refine ⟨{ moved with readyFlag := 1 }, ?_, hraw, hwrite⟩
    rw [moveClient, if_pos hopen, hmove]
    simp only [Except.bind, raiseReady, if_pos hmoved]
    rfl

theorem recvClient_neg (hraw : client.rawFlag = 1) (hneg : client.pWrite < 0)
    (waiting : Option (List UInt8)) : recvClient waiting client = .error .outOfRange := by
  unfold recvClient
  rw [if_pos hraw]
  split
  · rfl
  · exact if_neg fun hrange => absurd hrange.1 (by omega)

end

namespace Session

variable {s s' : Session} {i : Fin maxClients}

theorem store_self (s : Session) (i : Fin maxClients) :
    s.store i (s.sock.clientList i) (s.traffic i) = s := by
  simp [store]

theorem step_recv_closed (hclosed : (s.sock.clientList i).rawFlag ≠ 1)
    (waiting : Option (List UInt8)) : s.step (.recv i waiting) = .ok s := by
  simp only [step, recvClient_closed hclosed, finish, List.append_nil]
  exact congrArg Except.ok (store_self s i)

theorem step_move_closed (hclosed : (s.sock.clientList i).rawFlag ≠ 1) :
    s.step (.move i) = .ok s := by
  simp only [step, moveClient_closed hclosed, finish, List.append_nil]
  exact congrArg Except.ok (store_self s i)

/-- The first loop of a pass over slots that are not read from. -/
theorem run_recv_closed {slots : List (Fin maxClients)}
    (hclosed : ∀ j ∈ slots, (s.sock.clientList j).rawFlag ≠ 1) :
    Run (StepOf next) s (slots.map fun j => .recv j none) s := by
  induction slots with
  | nil => exact .nil s
  | cons j slots ih =>
      have hstep := step_recv_closed (hclosed j (List.mem_cons_self ..)) none
      exact .cons (stepOf_next.mpr hstep) (ih fun k hk => hclosed k (List.mem_cons_of_mem _ hk))

/-- The second loop of a pass over slots that are not moved. -/
theorem run_move_closed {slots : List (Fin maxClients)}
    (hclosed : ∀ j ∈ slots, (s.sock.clientList j).rawFlag ≠ 1) :
    Run (StepOf next) s (slots.map .move) s := by
  induction slots with
  | nil => exact .nil s
  | cons j slots ih =>
      have hstep := step_move_closed (hclosed j (List.mem_cons_self ..))
      exact .cons (stepOf_next.mpr hstep) (ih fun k hk => hclosed k (List.mem_cons_of_mem _ hk))

/-- A pass in which nothing is received. -/
def quietPass (conn : Connection) : RxCall := .pass conn fun _ => none

/-- There is no connection to accept. -/
def noConnection : Connection := { desc := -1, inBuf := true, readyBuf := true }

/-- A connection whose buffers are allocated. -/
def allocated : Connection := { desc := 5, inBuf := true, readyBuf := true }

theorem step_noConnection (s : Session) : s.step (.accept noConnection) = .ok s := rfl

/-- The run condition is met by these connections. -/
theorem allocates_of_bufs {conn : Connection} (hin : conn.inBuf = true)
    (hready : conn.readyBuf = true) (s : Session) : s.Allocates (.accept conn) :=
  fun _ hbufs => absurd ⟨hin, hready⟩ hbufs

/-- Where the first loop of the first pass comes to a slot. -/
theorem recv_begins (conn : Connection) {earlier later : List (Fin maxClients)}
    (hslots : List.finRange maxClients = earlier ++ i :: later) :
    (.accept conn :: earlier.map fun j => RxEvent.recv j none) ++ [.recv i none] <+:
      [quietPass conn].flatMap RxCall.events := by
  rw [List.flatMap_singleton, quietPass, RxCall.events, hslots]
  refine ⟨(later.map fun j => RxEvent.recv j none) ++ (earlier ++ i :: later).map .move, ?_⟩
  simp

/-- No slot is read from before the first connection. -/
theorem ListenerSafe.closed (hsafe : ListenerSafe s) (hnone : s.accepted = []) :
    ∀ i, (s.sock.clientList i).rawFlag ≠ 1 := by
  intro ⟨n, hn⟩
  induction n using Nat.strong_induction_on with
  | _ n ih =>
      intro hraw
      have hslots : List.finRange maxClients = (List.finRange maxClients).take n ++
          ⟨n, hn⟩ :: (List.finRange maxClients).drop (n + 1) := by
        have hdrop := List.drop_eq_getElem_cons (l := List.finRange maxClients) (by simpa using hn)
        rw [List.getElem_finRange] at hdrop
        exact (List.take_append_drop n _).symm.trans (congrArg _ hdrop)
      -- the loop comes to the slot by slots that are not read from
      have hbefore : Run (Guarded Allocates (StepOf next)) s
          (.accept noConnection :: ((List.finRange maxClients).take n).map fun j => .recv j none)
          s := by
        refine .cons ⟨allocates_of_bufs rfl rfl s, stepOf_next.mpr (step_noConnection s)⟩ ?_
        refine (run_recv_closed fun j hj => ?_).guarded fun event hevent m => ?_
        · obtain ⟨k, hk, rfl⟩ := List.mem_take_iff_getElem.mp hj
          rw [List.getElem_finRange]
          exact ih k (by omega) _
        · obtain ⟨j, -, rfl⟩ := List.mem_map.mp hevent
          trivial
      have hstep := hsafe _ _ _ _ (recv_begins noConnection hslots) hbefore (by simp)
      have haccepted := hstep.touches_accepted ⟨n, hn⟩ (if_pos hraw)
      rw [hnone] at haccepted
      cases haccepted

/-- The first connection, which has not sent anything when the first loop is done. -/
structure FirstConnection (packageSize : ℤ) (callback : Bool) (s : Session) : Prop where
  size_eq : s.sock.packageSize = packageSize
  callback_eq : s.sock.callback = callback
  closed : ∀ j ≠ 0, (s.sock.clientList j).rawFlag ≠ 1
  holds : (s.sock.clientList 0).Holds 1 [] []
  readyFlag : (s.sock.clientList 0).readyFlag = 0

/-- The slots after the first one. -/
abbrev otherSlots : List (Fin maxClients) := (List.finRange maxClients).tail

theorem ne_zero_of_mem_otherSlots {j : Fin maxClients} (hmem : j ∈ otherSlots) : j ≠ 0 := by
  revert j
  decide

/-- The first loop of the first pass, with a connection. -/
theorem exists_firstConnection (hfree : s.sock.AllFree)
    (hclosed : ∀ i, (s.sock.clientList i).rawFlag ≠ 1) :
    ∃ m, FirstConnection s.sock.packageSize s.sock.callback m ∧
      Run (Guarded Allocates (StepOf next)) s
        (.accept allocated :: (List.finRange maxClients).map fun j => .recv j none) m := by
  have hopened : (acceptClient allocated (s.sock.clientList 0)).Holds 1 [] [] ∧
      (acceptClient allocated (s.sock.clientList 0)).readyFlag = 0 :=
    acceptClient_holds 1 rfl rfl (s.sock.clientList 0)
  obtain ⟨hholds, hready⟩ := hopened
  obtain ⟨client, hrecv, hholds, hready⟩ := recvClient_none hholds hready
  let accepted : Session :=
    { s.store 0 (acceptClient allocated (s.sock.clientList 0)) ⟨[], []⟩ with
      accepted := s.accepted ++ [0] }
  let received : Session := accepted.store 0 client ⟨[], []⟩
  have haccept : s.step (.accept allocated) = .ok accepted := by
    have hdesc : 0 ≤ allocated.desc := by decide
    simp only [step, if_pos hdesc, hfree.freeSlot]
    rfl
  have hread : accepted.step (.recv 0 none) = .ok received := by
    have hclient : accepted.sock.clientList 0 = acceptClient allocated (s.sock.clientList 0) :=
      store_clientList_self s 0 _ ⟨[], []⟩
    have htraffic : accepted.traffic 0 = ⟨[], []⟩ :=
      store_traffic_self s 0 (acceptClient allocated (s.sock.clientList 0)) _
    simp only [step, hclient, hrecv, finish, htraffic]
    rfl
  have hothers : ∀ j ≠ 0, received.sock.clientList j = s.sock.clientList j := by
    intro j hne
    show (accepted.store 0 client ⟨[], []⟩).sock.clientList j = s.sock.clientList j
    rw [store_clientList_of_ne _ _ _ hne]
    exact store_clientList_of_ne s (acceptClient allocated (s.sock.clientList 0)) ⟨[], []⟩ hne
  have hfirst : received.sock.clientList 0 = client := store_clientList_self _ _ _ ⟨[], []⟩
  refine ⟨received, ?_, ?_⟩
  · exact {
      size_eq := rfl
      callback_eq := rfl
      closed := fun j hne => by rw [hothers j hne]; exact hclosed j
      holds := by rw [hfirst]; exact hholds
      readyFlag := by rw [hfirst]; exact hready }
  · rw [finRange_maxClients, List.map_cons]
    refine .cons ⟨allocates_of_bufs rfl rfl s, stepOf_next.mpr haccept⟩
      (.cons ⟨trivial, stepOf_next.mpr hread⟩ ?_)
    refine (run_recv_closed fun j hj => ?_).guarded fun event hevent m => ?_
    · rw [hothers j (ne_zero_of_mem_otherSlots hj)]
      exact hclosed j
    · obtain ⟨j, -, rfl⟩ := List.mem_map.mp hevent
      trivial

/-- A package size that is not safe shows when the first slot is moved, or when it is read from
in the next pass. -/
theorem FirstConnection.fault {packageSize : ℤ} {callback : Bool}
    (h : FirstConnection packageSize callback s) (hsize : ¬ SafeSize packageSize) :
    (∃ fault, s.step (.move 0) = .error (.fault 0 fault)) ∨
      ∃ s' fault, Run (Guarded Allocates (StepOf next)) s
          ((List.finRange maxClients).map .move ++ [.accept noConnection]) s' ∧
        s'.step (.recv 0 none) = .error (.fault 0 fault) := by
  have hraw := h.holds.rawFlag
  have hstep : s.step (.move 0) = s.finish 0
      (fun t packages => { t with delivered := t.delivered ++ packages })
      (moveClient packageSize callback (s.sock.clientList 0)) := by
    rw [← h.size_eq, ← h.callback_eq]
    rfl
  by_cases hzero : packageSize = 0
  · -- the division
    subst hzero
    rw [moveClient_zero hraw h.readyFlag] at hstep
    exact .inl ⟨_, hstep⟩
  have hrange : -65535 ≤ packageSize ∧ packageSize < 0 := by
    unfold SafeSize at hsize
    omega
  obtain ⟨hcallback, client, hmove, hraw', hwrite⟩ :=
    moveClient_neg hrange.1 hrange.2 h.holds h.readyFlag
  cases callback with
  | true =>
      rw [hcallback] at hstep
      exact .inl ⟨_, hstep⟩
  | false =>
      rw [hmove] at hstep
      have hstep : s.step (.move 0) = .ok (s.store 0 client (s.traffic 0)) := by
        rw [hstep, finish, List.append_nil]
      have hothers : ∀ j ≠ 0, ((s.store 0 client (s.traffic 0)).sock.clientList j).rawFlag ≠ 1 := by
        intro j hne
        rw [store_clientList_of_ne _ _ _ hne]
        exact h.closed j hne
      have hmoves : Run (Guarded Allocates (StepOf next)) (s.store 0 client (s.traffic 0))
          (otherSlots.map .move) (s.store 0 client (s.traffic 0)) := by
        refine (run_move_closed fun j hj => ?_).guarded fun event hevent m => ?_
        · exact hothers j (ne_zero_of_mem_otherSlots hj)
        · obtain ⟨j, -, rfl⟩ := List.mem_map.mp hevent
          trivial
      refine .inr ⟨s.store 0 client (s.traffic 0), .outOfRange, ?_, ?_⟩
      · rw [finRange_maxClients, List.map_cons, List.cons_append]
        exact .cons ⟨trivial, stepOf_next.mpr hstep⟩ (hmoves.append
          (.cons ⟨allocates_of_bufs rfl rfl _, stepOf_next.mpr (step_noConnection _)⟩ (.nil _)))
      · -- the next pass reads to a place before the buffer
        simp only [step, store_clientList_self, recvClient_neg hraw' hwrite, finish]

theorem ListenerSafe.safeSize (hsafe : ListenerSafe s) (hfree : s.sock.AllFree)
    (hclosed : ∀ i, (s.sock.clientList i).rawFlag ≠ 1) : SafeSize s.sock.packageSize := by
  obtain ⟨m, hm, hfirst⟩ := exists_firstConnection hfree hclosed
  by_contra hsize
  rcases hm.fault hsize with ⟨fault, hfault⟩ | ⟨s', fault, hrun, hfault⟩
  · have hbegins : (.accept allocated ::
          (List.finRange maxClients).map fun j => RxEvent.recv j none) ++ [.move 0] <+:
        [quietPass allocated].flatMap RxCall.events := by
      rw [List.flatMap_singleton, quietPass, RxCall.events]
      refine List.prefix_append_right_inj _ |>.mpr ?_
      rw [finRange_maxClients]
      exact ⟨otherSlots.map .move, rfl⟩
    exact (hsafe _ _ _ _ hbegins hfirst (by simp)).no_fault 0 fault hfault
  · have hbegins : ((.accept allocated ::
          (List.finRange maxClients).map fun j => RxEvent.recv j none) ++
            ((List.finRange maxClients).map .move ++ [.accept noConnection])) ++ [.recv 0 none] <+:
        [quietPass allocated, quietPass noConnection].flatMap RxCall.events := by
      rw [List.flatMap_cons, List.flatMap_singleton, quietPass, quietPass, RxCall.events,
        RxCall.events, finRange_maxClients]
      refine ⟨(otherSlots.map fun j => RxEvent.recv j none) ++ (0 :: otherSlots).map .move, ?_⟩
      simp
    exact (hsafe _ _ _ _ hbegins (hfirst.append hrun) (by simp)).no_fault 0 fault hfault

/-! ## Safety of every run -/

/-- The run condition is needed as well: the slot is read from next, into no buffer. -/
theorem not_safeStep_of_not_allocates {conn : Connection}
    (hallocates : ¬ s.Allocates (.accept conn)) :
    ∃ s' i, s.step (.accept conn) = .ok s' ∧ ¬ s'.SafeStep (.recv i none) := by
  obtain ⟨hdesc, hallocates⟩ := Classical.not_imp.mp hallocates
  obtain ⟨hbufs, hallocates⟩ := Classical.not_imp.mp hallocates
  obtain ⟨i, hallocates⟩ := not_forall.mp hallocates
  obtain ⟨hfree, hraw⟩ := Classical.not_imp.mp hallocates
  have hraw : (s.sock.clientList i).rawFlag = 1 := not_not.mp hraw
  refine ⟨{ s.store i (acceptClient conn (s.sock.clientList i)) ⟨[], []⟩ with
    accepted := s.accepted ++ [i] }, i, ?_, fun hsafe => ?_⟩
  · simp only [step, if_pos hdesc, hfree]
  · refine hsafe.no_fault i .outOfRange ?_
    simp only [step, store_clientList_self, recvClient, acceptClient_rawFlag hbufs, hraw, if_pos]
    rw [acceptClient, if_neg hbufs]
    rfl

/-- **Safety of the listener.**  After `InitRx` has returned `1`, every step of the listener is
safe, in all its runs, exactly if the package size is a safe one and no slot holds a `RawFlag`
of `1`. -/
theorem listenerSafe_iff (sock : Socket) (packageSize : ℤ) (callback : Bool)
    (results : InitResults) (hinit : (initRx sock packageSize callback results).2 = 1) :
    ListenerSafe (start (initRx sock packageSize callback results).1) ↔
      SafeSize packageSize ∧ ∀ i, (sock.clientList i).rawFlag ≠ 1 := by
  have hfree := initRx_allFree hinit
  have hsock := initRx_eq hinit
  constructor
  · intro hsafe
    have hclosed := hsafe.closed rfl
    have hsize := hsafe.safeSize hfree hclosed
    rw [start, hsock] at hsize hclosed
    exact ⟨hsize, hclosed⟩
  · rintro ⟨hsize, hclosed⟩ calls before event s - hrun hlistener
    have hstart : (start (initRx sock packageSize callback results).1).SoundSlots packageSize := by
      rw [start, hsock]
      exact { size_eq := rfl, accepted := fun i hraw => absurd hraw (hclosed i),
              sound := fun i hraw => absurd hraw (hclosed i) }
    have hinv : s.SoundSlots packageSize := by
      apply hrun.invariant _ hstart
      intro s event t hinv hstep
      exact hinv.step hsize hstep.1 (stepOf_next.mp hstep.2)
    exact hinv.safeStep hsize hlistener

/-- Packages of two bytes, and an object in memory that was zero. -/
theorem listenerSafe_sample :
    ListenerSafe (start (initRx (constructed 0 fun _ => .zero) 2 false (.success 4)).1) :=
  (listenerSafe_iff (constructed 0 fun _ => .zero) 2 false (.success 4) rfl).mpr
    ⟨by decide, fun _ => zero_ne_one⟩

/-- `InitRx` accepts a package size of zero, with which the first connection ends in a division
by it. -/
theorem not_listenerSafe_zero :
    (initRx (constructed 0 fun _ => .zero) 0 false (.success 4)).2 = 1 ∧
      ¬ ListenerSafe (start (initRx (constructed 0 fun _ => .zero) 0 false (.success 4)).1) := by
  refine ⟨rfl, fun hsafe => ?_⟩
  have hsize : SafeSize 0 := hsafe.safeSize (fun _ => rfl) fun _ => zero_ne_one
  exact absurd hsize (by decide)

end Session

end XbeeAssignment.Socket
