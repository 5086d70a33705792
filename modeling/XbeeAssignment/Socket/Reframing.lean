import XbeeAssignment.Lib.Framing
import XbeeAssignment.Socket.Listener

/-!
# Re-framing the stream of a connection

For a positive package size `p` a slot is a re-framer: what `recv` reads
is appended to the in buffer, the whole packages of the in buffer go to the ready
buffer, and packages are taken from the front of the ready buffer, by the
callback or by `Rx`.  `Holds` says that the two buffers hold two byte strings at
their starts, and the spec of each operation says what becomes of these strings;
that nothing is lost on the way is then `Framed`, with the ready bytes followed by
the in bytes as what is pending.

The move step needs no bound on the chunks: the in buffer never holds more than a
ready buffer does, so `NumFit` is never the smaller of the two numbers.
-/

namespace XbeeAssignment.Socket

open Memory Transition Framing

/-! ## The bytes in the buffers -/

namespace Client

/-- The bytes between `pInBuf` and `pWrite`. -/
def inBytes (client : Client) : List UInt8 :=
  match client.pInBuf with
  | none => []
  | some inBuf => slice inBuf 0 client.pWrite.toNat

/-- The bytes between `pReadyBuf` and `pReady`. -/
def readyBytes (client : Client) : List UInt8 :=
  match client.pReadyBuf with
  | none => []
  | some readyBuf => slice readyBuf 0 client.pReady.toNat

/-- Both buffers of the slot are there and hold `inBytes` and whole packages `readyBytes`. -/
structure Holds (p : ℕ) (client : Client) (inBytes readyBytes : List UInt8) : Prop where
  rawFlag : client.rawFlag = 1
  pEnd : client.pEnd = 65535
  inBuf : ∃ inBuf, client.pInBuf = some inBuf ∧ slice inBuf 0 inBytes.length = inBytes
  readyBuf : ∃ readyBuf, client.pReadyBuf = some readyBuf ∧
    slice readyBuf 0 readyBytes.length = readyBytes
  pWrite : client.pWrite = inBytes.length
  pReady : client.pReady = readyBytes.length
  length_inBytes : inBytes.length ≤ 65535
  length_readyBytes : readyBytes.length ≤ 65535
  dvd : p ∣ readyBytes.length

variable {p : ℕ} {client : Client} {inBytes readyBytes : List UInt8}

theorem Holds.inBytes_eq (h : Holds p client inBytes readyBytes) : client.inBytes = inBytes := by
  obtain ⟨inBuf, hinBuf, hslice⟩ := h.inBuf
  rw [Client.inBytes, hinBuf, h.pWrite]
  exact hslice

theorem Holds.readyBytes_eq (h : Holds p client inBytes readyBytes) :
    client.readyBytes = readyBytes := by
  obtain ⟨readyBuf, hreadyBuf, hslice⟩ := h.readyBuf
  rw [Client.readyBytes, hreadyBuf, h.pReady]
  exact hslice

/-- The test `pReady > pReadyBuf`. -/
theorem Holds.pReady_pos_iff (h : Holds p client inBytes readyBytes) :
    0 < client.pReady ↔ readyBytes ≠ [] := by
  rw [h.pReady, Int.natCast_pos, List.length_pos_iff]

end Client

/-! ## The operations -/

theorem acceptClient_holds (p : ℕ) {conn : Connection} (hinBuf : conn.inBuf = true)
    (hreadyBuf : conn.readyBuf = true) (client : Client) :
    (acceptClient conn client).Holds p [] [] ∧ (acceptClient conn client).readyFlag = 0 := by
  rw [acceptClient, if_pos ⟨hinBuf, hreadyBuf⟩]
  exact ⟨{ rawFlag := rfl, pEnd := rfl, inBuf := ⟨_, rfl, rfl⟩, readyBuf := ⟨_, rfl, rfl⟩,
           pWrite := rfl, pReady := rfl, length_inBytes := by simp, length_readyBytes := by simp,
           dvd := by simp }, rfl⟩

section

variable {p : ℕ} {client : Client} {inBytes readyBytes : List UInt8}

/-- `recv` appends what it reads to the in bytes. -/
theorem recvClient_holds (h : client.Holds p inBytes readyBytes) (waiting : Option (List UInt8)) :
    ∃ client' read, recvClient waiting client = .ok (client', read) ∧
      client'.Holds p (inBytes ++ read) readyBytes ∧ client'.readyFlag = client.readyFlag := by
  obtain ⟨inBuf, hinBuf, hslice⟩ := h.inBuf
  have hle := h.length_inBytes
  have hroom : client.pEnd - (inBytes.length : ℤ) = (65535 - inBytes.length : ℕ) := by
    rw [h.pEnd]
    omega
  have hrange : InRange inBytes.length (65535 - inBytes.length : ℕ) := by
    refine ⟨?_, ?_, ?_⟩ <;> omega
  -- never more than the room that was offered
  have hread : ((waiting.getD []).take (65535 - inBytes.length)).length ≤ 65535 - inBytes.length :=
    List.length_take_le ..
  generalize hreadEq : (waiting.getD []).take (65535 - inBytes.length) = read at hread
  refine ⟨{ client with pInBuf := some (blit inBuf inBytes.length read)
                        pWrite := client.pWrite + read.length }, read, ?_, ?_, rfl⟩
  · simp only [recvClient, if_pos h.rawFlag, hinBuf, h.pWrite, hroom, if_pos hrange,
      Int.toNat_natCast, hreadEq]
  · have happend := slice_blit_append inBuf 0 inBytes.length read
    rw [Nat.zero_add, hslice] at happend
    exact {
      rawFlag := h.rawFlag, pEnd := h.pEnd, readyBuf := h.readyBuf, pReady := h.pReady
      length_readyBytes := h.length_readyBytes, dvd := h.dvd
      inBuf := ⟨_, rfl, by rw [List.length_append, happend]⟩
      pWrite := by simp [h.pWrite]
      length_inBytes := by rw [List.length_append]; omega }

/-- What `recv` reads is what it finds, as far as there is room. -/
theorem recvClient_read {client' : Client} {waiting : Option (List UInt8)} {read : List UInt8}
    (hraw : client.rawFlag = 1) (h : recvClient waiting client = .ok (client', read)) :
    read = (waiting.getD []).take (client.pEnd - client.pWrite).toNat := by
  unfold recvClient at h
  rw [if_pos hraw] at h
  split at h
  · cases h
  · dsimp only at h
    split at h <;> cases h
    rfl

/-- With an empty ready buffer, the move takes all whole packages of the in bytes. -/
theorem moveRaw_holds (hp : 0 < p) (h : client.Holds p inBytes []) :
    ∃ client', moveRaw p client = .ok client' ∧
      client'.Holds p (inBytes.drop (inBytes.length / p * p))
        (inBytes.take (inBytes.length / p * p)) ∧
      client'.readyFlag = client.readyFlag := by
  obtain ⟨inBuf, hinBuf, hslice⟩ := h.inBuf
  obtain ⟨readyBuf, hreadyBuf, -⟩ := h.readyBuf
  have hin := h.length_inBytes
  have hpNe : (p : ℤ) ≠ 0 := by omega
  have hnum : numPackages p client.pWrite = (inBytes.length / p : ℕ) := by
    rw [h.pWrite, numPackages_natCast hin]
  have hsizeLe : inBytes.length / p * p ≤ inBytes.length := Nat.div_mul_le_self ..
  by_cases hnone : inBytes.length / p = 0
  · refine ⟨client, ?_, ?_, rfl⟩
    · rw [moveRaw, if_neg hpNe, hnum, hnone, if_pos (by rfl)]
    · simpa [hnone] using h
  · generalize hsize : inBytes.length / p * p = size at hsizeLe
    have hdvd : p ∣ size := ⟨inBytes.length / p, by rw [← hsize, Nat.mul_comm]⟩
    have hpack : ((inBytes.length / p : ℕ) : ℤ) * (p : ℤ) = (size : ℕ) := by
      rw [← hsize, Int.natCast_mul]
    have hready : client.pReady = 0 := h.pReady
    have hremain : client.pWrite - (size : ℤ) = (inBytes.length - size : ℕ) := by
      rw [h.pWrite]
      omega
    -- `NumFit` is no restriction, so what is moved and what remains are both in the buffers
    have hrange : InRange 0 size ∧ InRange 0 size ∧
        (0 < ((inBytes.length - size : ℕ) : ℤ) → InRange size (inBytes.length - size : ℕ)) := by
      refine ⟨⟨?_, ?_, ?_⟩, ⟨?_, ?_, ?_⟩, fun _ => ⟨?_, ?_, ?_⟩⟩ <;> omega
    have hfront : slice inBuf 0 size = inBytes.take size := by
      have htake := take_slice inBuf 0 hsizeLe
      rw [hslice] at htake
      exact htake.symm
    have hrest : slice inBuf size (inBytes.length - size) = inBytes.drop size := by
      have hdrop := drop_slice inBuf 0 hsizeLe
      rw [hslice, Nat.zero_add] at hdrop
      exact hdrop.symm
    refine ⟨{ client with
              pReadyBuf := some (blit readyBuf 0 (inBytes.take size))
              pReady := client.pReady + size
              pInBuf := some (blit inBuf 0 (inBytes.drop size))
              pWrite := client.pWrite - size }, ?_, ?_, rfl⟩
    · have hnumNe : ((inBytes.length / p : ℕ) : ℤ) ≠ 0 := by omega
      simp only [moveRaw, if_neg hpNe, hnum, if_neg hnumNe, hinBuf, hreadyBuf, hpack,
        if_pos hrange, hready, hremain, Int.toNat_natCast, Int.toNat_zero, hfront, hrest]
    · have htake : (inBytes.take size).length = size := List.length_take_of_le hsizeLe
      exact {
        rawFlag := h.rawFlag, pEnd := h.pEnd
        inBuf := ⟨_, rfl, slice_blit ..⟩
        readyBuf := ⟨_, rfl, slice_blit ..⟩
        pWrite := by rw [hremain, List.length_drop]
        pReady := by rw [hready, htake]; simp
        length_inBytes := by rw [List.length_drop]; omega
        length_readyBytes := by rw [htake]; omega
        dvd := by rwa [htake] }

/-- Without a callback the ready bytes stay, and the slot is marked if there are any. -/
theorem raiseReady_holds (h : client.Holds p inBytes readyBytes) (hflag : client.readyFlag = 0) :
    ∃ client', raiseReady p false client = .ok (client', []) ∧
      client'.Holds p inBytes readyBytes ∧
      client'.readyFlag = if readyBytes = [] then 0 else 1 := by
  by_cases hempty : readyBytes = []
  · have hready : ¬ 0 < client.pReady := fun hpos => h.pReady_pos_iff.mp hpos hempty
    exact ⟨client, by rw [raiseReady, if_neg hready], h, by rw [hflag, if_pos hempty]⟩
  · have hready : 0 < client.pReady := h.pReady_pos_iff.mpr hempty
    exact ⟨{ client with readyFlag := 1 }, by simp [raiseReady, hready], { h with },
      by rw [if_neg hempty]⟩

/-- The callback gets all the ready bytes, package by package. -/
theorem raiseReady_callback_holds (hp : 0 < p) (h : client.Holds p inBytes readyBytes)
    (hflag : client.readyFlag = 0) :
    ∃ client' packages, raiseReady p true client = .ok (client', packages) ∧
      client'.Holds p inBytes [] ∧ client'.readyFlag = 0 ∧
      packages.flatten = readyBytes ∧ ∀ package ∈ packages, package.length = p := by
  by_cases hempty : readyBytes = []
  · have hready : ¬ 0 < client.pReady := fun hpos => h.pReady_pos_iff.mp hpos hempty
    subst hempty
    exact ⟨client, [], by rw [raiseReady, if_neg hready], h, hflag, rfl, by simp⟩
  · obtain ⟨readyBuf, hreadyBuf, hslice⟩ := h.readyBuf
    have hready : 0 < client.pReady := h.pReady_pos_iff.mpr hempty
    have hpos : 0 < (p : ℤ) := by omega
    refine ⟨{ client with readyFlag := 0, pReady := 0 },
      callbackLoop readyBuf p readyBytes.length 0, ?_, ?_, rfl, ?_, fun _ => ?_⟩
    · rw [raiseReady, if_pos hready, if_pos rfl, hreadyBuf]
      simp only [if_pos hpos, h.pReady, Int.toNat_natCast]
    · exact { h with readyBuf := ⟨readyBuf, hreadyBuf, rfl⟩, pReady := rfl,
                     length_readyBytes := by simp, dvd := by simp }
    · rw [flatten_callbackLoop readyBuf hp (Nat.zero_le _) h.dvd]
      exact hslice
    · exact length_of_mem_callbackLoop

/-- `Rx` takes the first package of a ready slot. -/
theorem rxClient_holds (h : client.Holds p inBytes readyBytes)
    (hne : readyBytes ≠ []) (hflag : client.readyFlag = 1) :
    ∃ client', rxClient p client = .ok (client', readyBytes.take p) ∧
      client'.Holds p inBytes (readyBytes.drop p) ∧ p ≤ readyBytes.length ∧
      client'.readyFlag = if readyBytes.drop p = [] then 0 else 1 := by
  obtain ⟨readyBuf, hreadyBuf, hslice⟩ := h.readyBuf
  have hle : p ≤ readyBytes.length := Nat.le_of_dvd (List.length_pos_iff.mpr hne) h.dvd
  have hmax := h.length_readyBytes
  have hpackage : InRange 0 p := by
    refine ⟨?_, ?_, ?_⟩ <;> omega
  have hremain : (readyBytes.length : ℤ) - p = (readyBytes.length - p : ℕ) := by omega
  have hfront : slice readyBuf 0 p = readyBytes.take p := by
    have htake := take_slice readyBuf 0 hle
    rw [hslice] at htake
    exact htake.symm
  by_cases hlast : readyBytes.length = p
  · -- the last package: the slot is not ready any more
    have hnone : readyBytes.drop p = [] := List.drop_eq_nil_of_le hlast.le
    have hzero : ¬ ((readyBytes.length - p : ℕ) : ℤ) ≠ 0 := by omega
    refine ⟨{ client with readyFlag := 0, pReady := 0 }, ?_, ?_, hle, by rw [if_pos hnone]⟩
    · simp only [rxClient, hreadyBuf, if_pos hpackage, h.pReady, hremain, if_neg hzero,
        Int.toNat_natCast, hfront]
    · rw [hnone]
      exact { h with readyBuf := ⟨readyBuf, hreadyBuf, rfl⟩, pReady := rfl,
                     length_readyBytes := by simp, dvd := by simp }
  · have hsome : readyBytes.drop p ≠ [] := by
      rw [ne_eq, List.drop_eq_nil_iff]
      omega
    have hnonzero : ((readyBytes.length - p : ℕ) : ℤ) ≠ 0 := by omega
    have hrange : InRange p (readyBytes.length - p : ℕ) := by
      refine ⟨?_, ?_, ?_⟩ <;> omega
    have hrest : slice readyBuf p (readyBytes.length - p) = readyBytes.drop p := by
      have hdrop := drop_slice readyBuf 0 hle
      rw [hslice, Nat.zero_add] at hdrop
      exact hdrop.symm
    refine ⟨{ client with pReadyBuf := some (blit readyBuf 0 (readyBytes.drop p))
                          pReady := (readyBytes.length - p : ℕ) }, ?_, ?_, hle, ?_⟩
    · simp only [rxClient, hreadyBuf, if_pos hpackage, h.pReady, hremain, if_pos hnonzero,
        if_pos hrange, Int.toNat_natCast, hfront, hrest]
    · exact { h with
              readyBuf := ⟨_, rfl, slice_blit ..⟩
              pReady := by rw [List.length_drop]
              length_readyBytes := by rw [List.length_drop]; omega
              dvd := by rw [List.length_drop]; exact Nat.dvd_sub h.dvd (dvd_refl p) }
    · rw [if_neg hsome]
      exact hflag

end

/-! ## The invariant of a slot -/

/-- The slot holds the bytes of its connection that were not handed out yet, and is marked
ready exactly if there are whole packages for `Rx`. -/
structure SlotInvariant (p : ℕ) (callback : Bool) (client : Client) (traffic : Traffic)
    (inBytes readyBytes : List UInt8) : Prop where
  holds : client.Holds p inBytes readyBytes
  readyFlag : client.readyFlag = if readyBytes = [] then 0 else 1
  handed_out : callback = true → readyBytes = []
  framed : Framed p traffic.received traffic.delivered (readyBytes ++ inBytes)

namespace SlotInvariant

variable {p : ℕ} {callback : Bool} {client : Client} {traffic : Traffic}
  {inBytes readyBytes : List UInt8}

theorem recvClient (hinv : SlotInvariant p callback client traffic inBytes readyBytes)
    (waiting : Option (List UInt8)) :
    ∃ client' read, Socket.recvClient waiting client = .ok (client', read) ∧
      SlotInvariant p callback client' { traffic with received := traffic.received ++ read }
        (inBytes ++ read) readyBytes := by
  obtain ⟨client', read, hresult, hholds, hflag⟩ := recvClient_holds hinv.holds waiting
  refine ⟨client', read, hresult, hholds, hflag.trans hinv.readyFlag, hinv.handed_out, ?_⟩
  rw [← List.append_assoc]
  exact hinv.framed.feed read

/-- After the move, less than a package is left for the callback. -/
theorem moveClient (hp : 0 < p)
    (hinv : SlotInvariant p callback client traffic inBytes readyBytes) :
    ∃ client' packages inBytes' readyBytes',
      Socket.moveClient p callback client = .ok (client', packages) ∧
        SlotInvariant p callback client'
          { traffic with delivered := traffic.delivered ++ packages } inBytes' readyBytes' ∧
        (callback = true → inBytes'.length < p) := by
  by_cases hempty : readyBytes = []
  · subst hempty
    have hflag : client.readyFlag = 0 := hinv.readyFlag
    obtain ⟨moved, hmove, hholds, hmovedFlag⟩ := moveRaw_holds hp hinv.holds
    rw [hflag] at hmovedFlag
    have hopen : client.rawFlag = 1 ∧ client.readyFlag = 0 := ⟨hinv.holds.rawFlag, hflag⟩
    have hframed := hinv.framed
    rw [List.nil_append, ← List.take_append_drop (inBytes.length / p * p) inBytes] at hframed
    cases callback with
    | false =>
        -- the moved bytes change buffers, and what is pending stays the same
        obtain ⟨client', hraise, hholds', hflag'⟩ := raiseReady_holds hholds hmovedFlag
        refine ⟨client', [], _, _, ?_, ⟨hholds', hflag', by simp, ?_⟩, by simp⟩
        · rw [Socket.moveClient, if_pos hopen, hmove]
          exact hraise
        · rw [List.append_nil]
          exact hframed
    | true =>
        obtain ⟨client', packages, hraise, hholds', hflag', hpackages, hlength⟩ :=
          raiseReady_callback_holds hp hholds hmovedFlag
        refine ⟨client', packages, _, [], ?_, ⟨hholds', hflag', fun _ => rfl, ?_⟩, ?_⟩
        · rw [Socket.moveClient, if_pos hopen, hmove]
          exact hraise
        · rw [← hpackages] at hframed
          exact hframed.deliver hlength
        · -- what is left is the remainder of the division by the package size
          intro _
          have hmod := Nat.mod_lt inBytes.length hp
          have hdiv := Nat.div_add_mod inBytes.length p
          rw [Nat.mul_comm] at hdiv
          rw [List.length_drop]
          omega
  · -- the ready buffer has not been emptied yet
    have hclosed : ¬ (client.rawFlag = 1 ∧ client.readyFlag = 0) := by
      simp [hinv.readyFlag, hempty]
    refine ⟨client, [], inBytes, readyBytes, ?_, ?_, ?_⟩
    · rw [Socket.moveClient, if_neg hclosed]
    · simpa using hinv
    · intro hcallback
      exact absurd (hinv.handed_out hcallback) hempty

theorem rxClient (hinv : SlotInvariant p callback client traffic inBytes readyBytes)
    (hready : client.readyFlag = 1) :
    ∃ client' package, Socket.rxClient p client = .ok (client', package) ∧
      SlotInvariant p callback client'
        { traffic with delivered := traffic.delivered ++ [package] } inBytes
        (readyBytes.drop p) := by
  have hne : readyBytes ≠ [] := by
    intro hempty
    rw [hinv.readyFlag, if_pos hempty] at hready
    cases hready
  obtain ⟨client', hresult, hholds, hle, hflag⟩ := rxClient_holds hinv.holds hne hready
  refine ⟨client', _, hresult, hholds, hflag, ?_, ?_⟩
  · intro hcallback
    exact absurd (hinv.handed_out hcallback) hne
  · have hframed := hinv.framed
    rw [← List.take_append_drop p readyBytes, List.append_assoc] at hframed
    refine Framed.deliver (by simpa using hframed) ?_
    simpa using hle

end SlotInvariant

/-! ## Runs -/

namespace Session

/-- The step accepts no connection into slot `i`. -/
def KeepsSlot (i : Fin maxClients) (s : Session) (event : RxEvent) : Prop :=
  event.accepts = true → s.sock.freeSlot ≠ some i

instance (i : Fin maxClients) (s : Session) (event : RxEvent) : Decidable (s.KeepsSlot i event) :=
  inferInstanceAs (Decidable (_ → _))

/-- Slot `i` re-frames packages of size `p`. -/
structure Reframes (p : ℕ) (i : Fin maxClients) (s : Session) : Prop where
  packageSize : s.sock.packageSize = p
  slot : ∃ inBytes readyBytes,
    SlotInvariant p s.sock.callback (s.sock.clientList i) (s.traffic i) inBytes readyBytes

variable {p : ℕ} {i : Fin maxClients} {s s' : Session}

theorem Reframes.step (hp : 0 < p) (hinv : s.Reframes p i) {event : RxEvent}
    (hkeeps : s.KeepsSlot i event) (hstep : s.step event = .ok s') : s'.Reframes p i := by
  obtain ⟨hsize, inBytes, readyBytes, hslot⟩ := hinv
  refine ⟨(step_settings hstep).1.trans hsize, ?_⟩
  rw [(step_settings hstep).2]
  cases step_cases hstep with
  | refused _ | unready => exact ⟨inBytes, readyBytes, hslot⟩
  | @accept conn j haccepts hfree =>
      -- the connection goes to another slot
      have hne : i ≠ j := by
        rintro rfl
        exact hkeeps haccepts hfree
      refine ⟨inBytes, readyBytes, ?_⟩
      simpa [hne] using hslot
  | @recv j waiting client read hresult =>
      by_cases hsame : i = j
      · subst hsame
        obtain ⟨client', read', hresult', hslot'⟩ := hslot.recvClient waiting
        cases hresult.symm.trans hresult'
        exact ⟨_, _, by simpa using hslot'⟩
      · exact ⟨inBytes, readyBytes, by simpa [hsame] using hslot⟩
  | @move j client packages hresult =>
      by_cases hsame : i = j
      · subst hsame
        rw [hsize] at hresult
        obtain ⟨client', packages', _, _, hresult', hslot', -⟩ := hslot.moveClient hp
        cases hresult.symm.trans hresult'
        exact ⟨_, _, by simpa using hslot'⟩
      · exact ⟨inBytes, readyBytes, by simpa [hsame] using hslot⟩
  | @rx j client package hready hresult =>
      by_cases hsame : i = j
      · subst hsame
        rw [hsize] at hresult
        obtain ⟨client', package', hresult', hslot'⟩ := hslot.rxClient hready
        cases hresult.symm.trans hresult'
        exact ⟨_, _, by simpa using hslot'⟩
      · exact ⟨inBytes, readyBytes, by simpa [hsame] using hslot⟩

theorem Reframes.no_fault (hp : 0 < p) (hinv : s.Reframes p i) (event : RxEvent) (fault : Fault) :
    s.step event ≠ .error (.fault i fault) := by
  obtain ⟨hsize, inBytes, readyBytes, hslot⟩ := hinv
  intro hstep
  rcases step_fault hstep with ⟨waiting, hrecv⟩ | hmove | ⟨hready, hrx⟩
  · obtain ⟨client', read, hresult, -⟩ := hslot.recvClient waiting
    cases hrecv.symm.trans hresult
  · rw [hsize] at hmove
    obtain ⟨client', packages, _, _, hresult, -, -⟩ := hslot.moveClient hp
    cases hmove.symm.trans hresult
  · rw [hsize] at hrx
    obtain ⟨client', package, hresult, -⟩ := hslot.rxClient hready
    cases hrx.symm.trans hresult

/-! ## What is pending after a pass -/

/-- With a callback, less than a package is pending. -/
def Settled (p : ℕ) (i : Fin maxClients) (s : Session) : Prop :=
  s.sock.callback = true →
    ((s.sock.clientList i).readyBytes ++ (s.sock.clientList i).inBytes).length < p

theorem settled_congr (hcallback : s'.sock.callback = s.sock.callback)
    (hclient : s'.sock.clientList i = s.sock.clientList i) (h : s.Settled p i) :
    s'.Settled p i := by
  intro hset
  rw [hclient]
  exact h (hcallback ▸ hset)

theorem settled_of_move (hp : 0 < p) (hinv : s.Reframes p i) (hstep : s.step (.move i) = .ok s') :
    s'.Settled p i := by
  obtain ⟨hsize, inBytes, readyBytes, hslot⟩ := hinv
  intro hcallback
  rw [(step_settings hstep).2] at hcallback
  cases step_cases hstep with
  | move hresult =>
      rw [hsize] at hresult
      obtain ⟨client, packages, inBytes', readyBytes', hresult', hslot', hpending⟩ :=
        hslot.moveClient hp
      cases hresult.symm.trans hresult'
      obtain rfl := hslot'.handed_out hcallback
      rw [store_clientList_self, hslot'.holds.inBytes_eq, hslot'.holds.readyBytes_eq]
      exact hpending hcallback

theorem clientList_of_move {j : Fin maxClients} (hne : i ≠ j)
    (hstep : s.step (.move j) = .ok s') : s'.sock.clientList i = s.sock.clientList i := by
  cases step_cases hstep with
  | move _ => exact store_clientList_of_ne _ _ _ hne

theorem settled_of_moves (hp : 0 < p) {slots : List (Fin maxClients)} (hinv : s.Reframes p i)
    (hmoved : i ∈ slots ∨ s.Settled p i)
    (hrun : Run (Guarded (KeepsSlot i) (StepOf next)) s (slots.map .move) s') :
    s'.Settled p i := by
  induction slots generalizing s with
  | nil =>
      cases hrun
      exact hmoved.resolve_left (by simp)
  | cons j slots ih =>
      obtain ⟨m, ⟨hkeeps, hnext⟩, hrest⟩ := hrun.exists_of_cons
      have hstep := stepOf_next.mp hnext
      refine ih (hinv.step hp hkeeps hstep) ?_ hrest
      by_cases hsame : i = j
      · subst hsame
        exact .inr (settled_of_move hp hinv hstep)
      · -- the move of another slot settles nothing and spoils nothing
        rcases hmoved with hmem | hsettled
        · exact .inl (List.mem_of_ne_of_mem hsame hmem)
        · exact .inr (settled_congr (step_settings hstep).2 (clientList_of_move hsame hstep)
            hsettled)

theorem Reframes.run (hp : 0 < p) {events : List RxEvent} (hinv : s.Reframes p i)
    (hrun : Run (Guarded (KeepsSlot i) (StepOf next)) s events s') : s'.Reframes p i := by
  apply hrun.invariant _ hinv
  intro s event t hinv hstep
  exact hinv.step hp hstep.1 (stepOf_next.mp hstep.2)

theorem settled_of_call (hp : 0 < p) (call : RxCall) (hinv : s.Reframes p i)
    (hsettled : s.Settled p i)
    (hrun : Run (Guarded (KeepsSlot i) (StepOf next)) s call.events s') : s'.Settled p i := by
  cases call with
  | pass conn waiting =>
      obtain ⟨m, hfirst, hmoves⟩ := hrun.exists_of_append
      exact settled_of_moves hp (hinv.run hp hfirst) (.inl (List.mem_finRange i)) hmoves
  | rx =>
      obtain ⟨m, ⟨-, hnext⟩, hnil⟩ := hrun.exists_of_cons
      cases hnil
      have hstep := stepOf_next.mp hnext
      have hcallback := (step_settings hstep).2
      obtain ⟨-, inBytes, readyBytes, hslot⟩ := hinv
      cases step_cases hstep with
      | unready => exact hsettled
      | @rx j client package hready hresult =>
          by_cases hsame : i = j
          · -- a slot is never ready when there is a callback
            subst hsame
            intro hset
            rw [hslot.readyFlag, if_pos (hslot.handed_out hset)] at hready
            cases hready
          · exact settled_congr hcallback (store_clientList_of_ne _ _ _ hsame) hsettled

theorem settled_of_calls (hp : 0 < p) {calls : List RxCall} (hinv : s.Reframes p i)
    (hsettled : s.Settled p i)
    (hrun : Run (Guarded (KeepsSlot i) (StepOf next)) s (calls.flatMap RxCall.events) s') :
    s'.Settled p i := by
  have hcall : ∀ (s : Session) (call : RxCall) (t : Session), s.Reframes p i ∧ s.Settled p i →
      Run (Guarded (KeepsSlot i) (StepOf next)) s call.events t →
        t.Reframes p i ∧ t.Settled p i := by
    intro s call t hboth hrun
    exact ⟨hboth.1.run hp hrun, settled_of_call hp call hboth.1 hboth.2 hrun⟩
  exact (hrun.invariant_flatMap hcall ⟨hinv, hsettled⟩).2

/-! ## The stream of a connection -/

/-- The listener stores `conn` in slot `i`, and both buffers of the slot are allocated. -/
structure Establishes (s : Session) (conn : Connection) (i : Fin maxClients) (s' : Session) :
    Prop where
  inBuf : conn.inBuf = true
  readyBuf : conn.readyBuf = true
  accepts : (RxEvent.accept conn).accepts = true
  free : s.sock.freeSlot = some i
  step : s.step (.accept conn) = .ok s'

theorem Establishes.slot {conn : Connection} (h : s.Establishes conn i s') :
    s'.sock.clientList i = acceptClient conn (s.sock.clientList i) ∧
      s'.traffic i = { received := [], delivered := [] } := by
  cases step_cases h.step with
  | refused hrefused => exact absurd h.accepts (by simp [hrefused])
  | @accept _ j haccepts hfree =>
      obtain rfl : j = i := Option.some.inj (hfree.symm.trans h.free)
      simp

theorem Establishes.reframes {conn : Connection} (h : s.Establishes conn i s')
    (hsize : s.sock.packageSize = p) (hp : 0 < p) : s'.Reframes p i ∧ s'.Settled p i := by
  obtain ⟨hclient, htraffic⟩ := h.slot
  obtain ⟨hholds, hflag⟩ := acceptClient_holds p h.inBuf h.readyBuf (s.sock.clientList i)
  rw [← hclient] at hholds hflag
  refine ⟨⟨(step_settings h.step).1.trans hsize, [], [], hholds, hflag, fun _ => rfl, ?_⟩,
    fun _ => ?_⟩
  · rw [htraffic]
    exact Framed.empty p
  · rw [hholds.inBytes_eq, hholds.readyBytes_eq]
    exact hp

/-- **Re-framing.**  After any run of the listener and of `Rx` from the acceptance of a
connection on, what was handed out, the ready bytes and the in bytes of its slot are the bytes
received in order, every package is the next `p` bytes of them, and the next step is free of
faults in the slot.  With a callback, less than a package is pending after a pass. -/
theorem reframing (p : ℕ) (hp : 1 ≤ p) (conn : Connection) (i : Fin maxClients)
    (s₀ s₁ s : Session) (hsize : s₀.sock.packageSize = p) (haccept : s₀.Establishes conn i s₁)
    (events : List RxEvent) (hrun : Run (Guarded (KeepsSlot i) (StepOf next)) s₁ events s) :
    (s.traffic i).delivered.flatten ++ (s.sock.clientList i).readyBytes ++
        (s.sock.clientList i).inBytes = (s.traffic i).received ∧
      (∀ k package, (s.traffic i).delivered[k]? = some package →
        package.length = p ∧ package = ((s.traffic i).received.drop (k * p)).take p) ∧
      (0 ≤ (s.sock.clientList i).pWrite ∧ (s.sock.clientList i).pWrite ≤ 65535) ∧
      (0 ≤ (s.sock.clientList i).pReady ∧ (s.sock.clientList i).pReady ≤ 65535 ∧
        (p : ℤ) ∣ (s.sock.clientList i).pReady) ∧
      (∀ event fault, s.step event ≠ .error (.fault i fault)) ∧
      (s.sock.callback = true → ∀ calls : List RxCall, events = calls.flatMap RxCall.events →
        ((s.sock.clientList i).readyBytes ++ (s.sock.clientList i).inBytes).length < p) := by
  obtain ⟨hstart, hsettled⟩ := haccept.reframes hsize hp
  have hinv := hstart.run hp hrun
  have hfaults := hinv.no_fault hp
  obtain ⟨-, inBytes, readyBytes, hslot⟩ := hinv
  have hholds := hslot.holds
  refine ⟨?_, ?_, ⟨?_, ?_⟩, ⟨?_, ?_, ?_⟩, hfaults, ?_⟩
  · rw [hholds.readyBytes_eq, hholds.inBytes_eq, List.append_assoc]
    exact hslot.framed.stream_eq
  · intro k package hk
    exact ⟨hslot.framed.length_eq package (List.mem_of_getElem? hk),
      hslot.framed.getElem?_eq hk⟩
  · rw [hholds.pWrite]
    omega
  · rw [hholds.pWrite]
    exact_mod_cast hholds.length_inBytes
  · rw [hholds.pReady]
    omega
  · rw [hholds.pReady]
    exact_mod_cast hholds.length_readyBytes
  · rw [hholds.pReady]
    exact Int.natCast_dvd_natCast.mpr hholds.dvd
  · rintro hcallback calls rfl
    exact settled_of_calls hp hstart hsettled hrun hcallback

/-- A listener for packages of two bytes with its first connection. -/
def sampleSession : Session :=
  { sampleStart.store 0 (acceptClient { desc := 5, inBuf := true, readyBuf := true } .zero)
      { received := [], delivered := [] } with
    accepted := [0] }

/-- Three bytes are read and moved, `Rx` is called, and a fourth byte is read. -/
theorem reframing_sample :
    ∃ s, Run (Guarded (KeepsSlot 0) (StepOf next)) sampleSession
        [.recv 0 (some [1, 2, 3]), .move 0, .rx, .recv 0 (some [4])] s ∧
      (s.traffic 0).received = [1, 2, 3, 4] ∧ (s.traffic 0).delivered = [[1, 2]] ∧
      (s.traffic 0).delivered.flatten ++ (s.sock.clientList 0).readyBytes ++
        (s.sock.clientList 0).inBytes = (s.traffic 0).received := by
  have haccept : sampleStart.Establishes { desc := 5, inBuf := true, readyBuf := true } 0
      sampleSession :=
    { inBuf := rfl, readyBuf := rfl, accepts := rfl, free := rfl, step := rfl }
  have hrun : Run (Guarded (KeepsSlot 0) (StepOf next)) sampleSession
      [.recv 0 (some [1, 2, 3]), .move 0, .rx, .recv 0 (some [4])] _ :=
    run_guarded_iff_exec.mpr rfl
  exact ⟨_, hrun, rfl, rfl, (reframing 2 (by decide) _ 0 _ _ _ rfl haccept _ hrun).1⟩

end Session

end XbeeAssignment.Socket
