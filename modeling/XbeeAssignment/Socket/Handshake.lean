import XbeeAssignment.Socket.Listener

/-!
# The `ReadyFlag` handshake

Without a callback the listener and the application share the ready buffer of a
slot.  `ReadyFlag` says whose turn it is: the listener fills the buffer while the
flag is `0` and raises it, and `Rx` empties the buffer while the flag is `1` and
clears it.  `Handshake` interleaves the two, one assignment at a time, for a
positive package size; a range is not checked when it is written, so that staying
inside the buffer is something to prove.

`Rx` clears the flag before it sets `pReady` back to the start of the buffer.
While it stands between the two assignments (`RxPc.reset`), a `memcpy` of the
listener starts behind the package that was just returned, and what it moves is
dropped by the second assignment (`handshake_overtaken`).  If the listener reads
`pReady` at no such moment, every `memcpy` starts at offset `0`, and the bytes moved
are at each point those returned and those still owed to the application
(`handshake`).
-/

namespace XbeeAssignment.Socket

open Memory Transition

/-! ## The two programs -/

/-- The statement of a pass over the slot the listener is at. -/
inductive ListenerPc
  | recv
  /-- At the test of `RawFlag` and `ReadyFlag`. -/
  | test
  /-- At the computation of `PackSize`. -/
  | size
  /-- At the `memcpy`. -/
  | copy (packSize : ℤ)
  /-- At `pReady += PackSize`. -/
  | advance (packSize : ℤ)
  /-- At the `memmove` of what remains in the in buffer. -/
  | shift (packSize : ℤ)
  /-- At the test `pReady > pReadyBuf`. -/
  | check
  /-- At `ReadyFlag = 1`. -/
  | raise

/-- The statement of a call of `Rx` the application is at, with what was fetched. -/
inductive RxPc
  /-- Not in a call, or at its test of `ReadyFlag`. -/
  | idle
  | size
  /-- At the `memcpy` to `pDat`. -/
  | fetch (size : ℤ)
  /-- At the `memmove` of what remains in the ready buffer. -/
  | shift (remain : ℤ) (pDat : List UInt8)
  /-- At `pReady = pReadyBuf + Remain`. -/
  | store (remain : ℤ) (pDat : List UInt8)
  /-- At `ReadyFlag = 0`. -/
  | clear (pDat : List UInt8)
  /-- At `pReady = pReadyBuf`. -/
  | reset (pDat : List UInt8)
  /-- At `return (1)`. -/
  | ret (pDat : List UInt8)

/-- At a statement that reads `pReady` as the end of what is in the ready buffer. -/
def ListenerPc.readsReady : ListenerPc → Bool
  | .copy _ | .check => true
  | _ => false

/-- Between `ReadyFlag = 0` and `pReady = pReadyBuf`. -/
def RxPc.betweenAssignments : RxPc → Bool
  | .reset _ => true
  | _ => false

/-- Who makes the next step; `waiting` is what the listener's `recv` would find. -/
inductive Turn
  | listener (waiting : Option (List UInt8))
  | rx

namespace Client

/-- The cells behind `pInBuf`. -/
def inCells (client : Client) : ℕ → UInt8 :=
  client.pInBuf.getD fun _ => 0

/-- The cells behind `pReadyBuf`. -/
def readyCells (client : Client) : ℕ → UInt8 :=
  client.pReadyBuf.getD fun _ => 0

end Client

/-- The slot, the places of the two programs, and the bytes moved to the ready buffer and
returned by `Rx` so far. -/
structure Handshake where
  client : Client
  listener : ListenerPc
  rx : RxPc
  moved : List UInt8
  returned : List UInt8

namespace Handshake

/-- The slot as `accept` leaves it, with nobody at work. -/
def initial (client : Client) : Handshake :=
  { client := client, listener := .recv, rx := .idle, moved := [], returned := [] }

/-- The next statement of the listener. -/
def listenerNext (packageSize : ℤ) (waiting : Option (List UInt8)) (s : Handshake) :
    Option Handshake :=
  match s.listener with
  | .recv =>
      match recvClient waiting s.client with
      | .ok (client, _) => some { s with client := client, listener := .test }
      | .error _ => none
  | .test =>
      if s.client.rawFlag = 1 ∧ s.client.readyFlag = 0 then some { s with listener := .size }
      else some { s with listener := .recv }
  | .size =>
      let num := numPackages packageSize s.client.pWrite
      some { s with listener := if num ≠ 0 then .copy (num * packageSize) else .check }
  | .copy packSize =>
      -- `memcpy` starts at `pReady`, wherever `Rx` has left it
      let cells := slice s.client.inCells 0 packSize.toNat
      some { s with
        client := { s.client with
          pReadyBuf := some (blit s.client.readyCells s.client.pReady.toNat cells) }
        listener := .advance packSize
        moved := s.moved ++ cells }
  | .advance packSize =>
      some { s with
        client := { s.client with pReady := s.client.pReady + packSize }
        listener := .shift packSize }
  | .shift packSize =>
      let remain := s.client.pWrite - packSize
      some { s with
        client := { s.client with
          pInBuf := some (blit s.client.inCells 0
            (slice s.client.inCells packSize.toNat remain.toNat))
          pWrite := remain }
        listener := .check }
  | .check => some { s with listener := if 0 < s.client.pReady then .raise else .recv }
  | .raise => some { s with client := { s.client with readyFlag := 1 }, listener := .recv }

/-- The next statement of `Rx`. -/
def rxNext (packageSize : ℤ) (s : Handshake) : Handshake :=
  match s.rx with
  | .idle => if s.client.readyFlag = 1 then { s with rx := .size } else s
  | .size => { s with rx := .fetch s.client.pReady }
  | .fetch size =>
      -- the test is of `Remain`, and not of its sign
      let pDat := slice s.client.readyCells 0 packageSize.toNat
      let remain := size - packageSize
      { s with rx := if remain ≠ 0 then .shift remain pDat else .clear pDat }
  | .shift remain pDat =>
      { s with
        client := { s.client with
          pReadyBuf := some (blit s.client.readyCells 0
            (slice s.client.readyCells packageSize.toNat remain.toNat)) }
        rx := .store remain pDat }
  | .store remain pDat =>
      { s with client := { s.client with pReady := remain }, rx := .ret pDat }
  | .clear pDat => { s with client := { s.client with readyFlag := 0 }, rx := .reset pDat }
  | .reset pDat => { s with client := { s.client with pReady := 0 }, rx := .ret pDat }
  | .ret pDat => { s with rx := .idle, returned := s.returned ++ pDat }

def next (packageSize : ℤ) (s : Handshake) : Turn → Option Handshake
  | .listener waiting => s.listenerNext packageSize waiting
  | .rx => some (s.rxNext packageSize)

/-! ## The two programs alone -/

/-- The statements from the computation of `PackSize` on are `moveRaw`. -/
theorem run_moveRaw {packageSize : ℤ} (waiting : Option (List UInt8)) {s : Handshake}
    (hpc : s.listener = .size) {client : Client}
    (hmove : moveRaw packageSize s.client = .ok client) :
    ∃ n moved, Run (StepOf (next packageSize)) s (List.replicate n (.listener waiting))
      { s with client := client, listener := .check, moved := s.moved ++ moved } := by
  unfold moveRaw at hmove
  split at hmove
  · cases hmove
  split at hmove
  · -- no whole package: from the computation of `PackSize` straight to the test of `pReady`
    next hnum =>
      cases hmove
      refine ⟨1, [], run_iff_exec.mpr ?_⟩
      simp [exec, next, listenerNext, hpc, hnum]
  · next hnum =>
      split at hmove
      · next inBuf readyBuf hinBuf hreadyBuf =>
          dsimp only at hmove
          split at hmove <;> cases hmove
          -- the `memcpy`, the advance of `pReady` and the `memmove` after it
          refine ⟨4, slice inBuf 0 (numPackages packageSize s.client.pWrite * packageSize).toNat,
            run_iff_exec.mpr ?_⟩
          simp [exec, next, listenerNext, hpc, hnum, Client.inCells, Client.readyCells, hinBuf,
            hreadyBuf]
      · cases hmove

/-- The statements from the test of `pReady` on are `raiseReady`. -/
theorem run_raiseReady {packageSize : ℤ} (waiting : Option (List UInt8)) {s : Handshake}
    (hpc : s.listener = .check) {client : Client} {packages : List (List UInt8)}
    (hraise : raiseReady packageSize false s.client = .ok (client, packages)) :
    ∃ n, Run (StepOf (next packageSize)) s (List.replicate n (.listener waiting))
      { s with client := client, listener := .recv } := by
  unfold raiseReady at hraise
  split at hraise
  · next hready =>
      cases hraise
      exact ⟨2, run_iff_exec.mpr (by simp [exec, next, listenerNext, hpc, hready])⟩
  · next hready =>
      cases hraise
      exact ⟨1, run_iff_exec.mpr (by simp [exec, next, listenerNext, hpc, hready])⟩

/-- A pass of the listener over the slot in which `Rx` makes no step is a `recv` and a move. -/
theorem run_listener {packageSize : ℤ} {waiting : Option (List UInt8)} {s : Handshake}
    (hpc : s.listener = .recv) {client client' : Client} {read : List UInt8}
    {packages : List (List UInt8)} (hrecv : recvClient waiting s.client = .ok (client, read))
    (hmove : moveClient packageSize false client = .ok (client', packages)) :
    ∃ n moved, Run (StepOf (next packageSize)) s (List.replicate n (.listener waiting))
      { s with client := client', listener := .recv, moved := s.moved ++ moved } := by
  unfold moveClient at hmove
  split at hmove
  · next hopen =>
      cases hraw : moveRaw packageSize client with
      | error fault =>
          rw [hraw] at hmove
          cases hmove
      | ok raw =>
          rw [hraw] at hmove
          have htest : Run (StepOf (next packageSize)) s (List.replicate 2 (.listener waiting))
              { s with client := client, listener := .size } := by
            apply run_iff_exec.mpr
            simp [exec, next, listenerNext, hpc, hrecv, hopen]
          obtain ⟨n, moved, hmoved⟩ := run_moveRaw waiting
            (s := { s with client := client, listener := .size }) rfl hraw
          obtain ⟨m, hraised⟩ := run_raiseReady waiting
            (s := { s with client := raw, listener := .check, moved := s.moved ++ moved }) rfl hmove
          refine ⟨2 + n + m, moved, ?_⟩
          rw [List.replicate_add, List.replicate_add]
          exact (htest.append hmoved).append hraised
  · next hclosed =>
      cases hmove
      refine ⟨2, [], run_iff_exec.mpr ?_⟩
      simp [exec, next, listenerNext, hpc, hrecv, hclosed]

/-- A call of `Rx` in which the listener makes no step takes one package. -/
theorem run_rx {packageSize : ℤ} {s : Handshake} (hpc : s.rx = .idle)
    (hflag : s.client.readyFlag = 1) {client : Client} {package : List UInt8}
    (hrx : rxClient packageSize s.client = .ok (client, package)) :
    Run (StepOf (next packageSize)) s (List.replicate 6 .rx)
      { s with client := client, rx := .idle, returned := s.returned ++ package } := by
  unfold rxClient at hrx
  split at hrx
  · cases hrx
  next readyBuf hreadyBuf =>
  dsimp only at hrx
  split at hrx
  · split at hrx
    · next hremain =>
        split at hrx <;> cases hrx
        apply run_iff_exec.mpr
        simp [exec, next, rxNext, hpc, hflag, hremain, Client.readyCells, hreadyBuf]
    · next hremain =>
        cases hrx
        have hzero : s.client.pReady - packageSize = 0 := not_not.mp hremain
        apply run_iff_exec.mpr
        simp [exec, next, rxNext, hpc, hflag, hzero, Client.readyCells, hreadyBuf]
  · cases hrx

/-! ## The bytes on their way -/

/-- The bytes in the ready buffer while `Rx` does not take from it. -/
def readyOwed (s : Handshake) : List UInt8 :=
  match s.listener with
  | .advance packSize => slice s.client.readyCells 0 packSize.toNat
  | _ => slice s.client.readyCells 0 s.client.pReady.toNat

/-- The bytes that were moved to the ready buffer and that `Rx` still has to return. -/
def owed (p : ℕ) (s : Handshake) : List UInt8 :=
  match s.rx with
  | .idle | .size | .fetch _ => s.readyOwed
  | .shift remain pDat => pDat ++ slice s.client.readyCells p remain.toNat
  | .store remain pDat => pDat ++ slice s.client.readyCells 0 remain.toNat
  | .clear pDat | .reset pDat => pDat
  | .ret pDat => pDat ++ s.readyOwed

/-- The listener does not read `pReady` while `Rx` has cleared the flag but not set `pReady`
back. -/
def NotOvertaken (s : Handshake) : Turn → Prop
  | .listener _ => ¬ (s.listener.readsReady = true ∧ s.rx.betweenAssignments = true)
  | .rx => True

instance (s : Handshake) : (turn : Turn) → Decidable (s.NotOvertaken turn)
  | .listener _ => inferInstanceAs (Decidable (¬ _))
  | .rx => inferInstanceAs (Decidable True)

/-! ## What the two programs rely on -/

/-- A positive number of whole packages that a buffer can hold. -/
def Whole (p : ℕ) (size : ℤ) : Prop :=
  0 < size ∧ size ≤ 65535 ∧ (p : ℤ) ∣ size

/-- What holds when the listener is at its place and `Rx` does not work on the buffer, with
`ready` for the offset `pReady`. -/
def ListenerOk (p : ℕ) (client : Client) (ready : ℤ) : ListenerPc → Prop
  | .recv | .test =>
      (client.readyFlag = 0 ∧ ready = 0) ∨ (client.readyFlag = 1 ∧ Whole p ready)
  | .size => client.readyFlag = 0 ∧ ready = 0
  | .copy packSize | .advance packSize =>
      client.readyFlag = 0 ∧ ready = 0 ∧ Whole p packSize ∧ packSize ≤ client.pWrite
  | .shift packSize =>
      client.readyFlag = 0 ∧ ready = packSize ∧ Whole p packSize ∧ packSize ≤ client.pWrite
  | .check => client.readyFlag = 0 ∧ (ready = 0 ∨ Whole p ready)
  | .raise => client.readyFlag = 0 ∧ Whole p ready

/-- The flag is up, and the listener leaves the slot alone. -/
def Marked (s : Handshake) : Prop :=
  s.client.readyFlag = 1 ∧ (s.listener = .recv ∨ s.listener = .test)

/-- The flag was cleared and `pReady` was not: the listener has not come to it yet. -/
def Cleared (s : Handshake) : Prop :=
  s.client.readyFlag = 0 ∧ (s.listener = .recv ∨ s.listener = .test ∨ s.listener = .size ∨
    s.listener = .check ∨ ∃ packSize, s.listener = .copy packSize)

/-- What holds at the places of the two programs. -/
def Places (p : ℕ) (s : Handshake) : Prop :=
  match s.rx with
  | .idle | .ret _ => ListenerOk p s.client s.client.pReady s.listener
  | .size => s.Marked ∧ Whole p s.client.pReady
  | .fetch size => s.Marked ∧ Whole p size ∧ s.client.pReady = size
  | .shift remain _ | .store remain _ => s.Marked ∧ Whole p remain
  | .clear _ => s.Marked
  | .reset _ => s.Cleared ∧ ListenerOk p s.client 0 s.listener

/-- The part of the slot that only the listener uses. -/
structure Reads (client : Client) : Prop where
  rawFlag : client.rawFlag = 1
  pEnd : client.pEnd = 65535
  inBuf : client.pInBuf.isSome
  pWrite_nonneg : 0 ≤ client.pWrite
  pWrite_le : client.pWrite ≤ 65535

structure Invariant (p : ℕ) (s : Handshake) : Prop where
  reads : Reads s.client
  places : s.Places p
  moved_eq : s.moved = s.returned ++ s.owed p

variable {p : ℕ} {s s' : Handshake} {waiting : Option (List UInt8)}

/-! ## Steps of the listener -/

/-- `recv` touches the in buffer only. -/
theorem reads_recvClient {client client' : Client} {read : List UInt8} (h : Reads client)
    (hresult : recvClient waiting client = .ok (client', read)) :
    Reads client' ∧ client'.pReadyBuf = client.pReadyBuf ∧ client'.pReady = client.pReady ∧
      client'.readyFlag = client.readyFlag := by
  obtain ⟨inBuf, hinBuf⟩ := Option.isSome_iff_exists.mp h.inBuf
  have hrange : InRange client.pWrite (client.pEnd - client.pWrite) := by
    have hlow := h.pWrite_nonneg
    have hhigh := h.pWrite_le
    rw [h.pEnd]
    refine ⟨?_, ?_, ?_⟩ <;> omega
  simp only [recvClient, if_pos h.rawFlag, hinBuf, if_pos hrange, Except.ok.injEq,
    Prod.mk.injEq] at hresult
  obtain ⟨rfl, hread⟩ := hresult
  have hlength : read.length ≤ (client.pEnd - client.pWrite).toNat := by
    rw [← hread]
    exact List.length_take_le ..
  have hlow := h.pWrite_nonneg
  have hhigh := h.pWrite_le
  rw [h.pEnd] at hlength
  refine ⟨{ rawFlag := h.rawFlag, pEnd := h.pEnd, inBuf := rfl, pWrite_nonneg := ?_,
            pWrite_le := ?_ }, rfl, rfl, rfl⟩
  · simp only [hread]
    omega
  · simp only [hread]
    omega

/-- The packages to move are whole ones of what was read. -/
theorem whole_packSize {client : Client} (hp : 0 < p) (h : Reads client)
    (hnum : numPackages p client.pWrite ≠ 0) :
    Whole p (numPackages p client.pWrite * p) ∧
      numPackages p client.pWrite * p ≤ client.pWrite := by
  obtain ⟨n, hn⟩ := Int.eq_ofNat_of_zero_le h.pWrite_nonneg
  have hmax : n ≤ 65535 := by
    have := h.pWrite_le
    omega
  have hsize : numPackages p client.pWrite = (n / p : ℕ) := by
    rw [hn]
    exact numPackages_natCast hmax
  have hle : n / p * p ≤ n := Nat.div_mul_le_self n p
  -- a number of packages that is not zero is positive, since `pWrite` is not negative
  have hpos : 0 < n / p * p := by
    refine Nat.mul_pos (Nat.pos_of_ne_zero fun hzero => hnum ?_) hp
    rw [hsize, hzero]
    rfl
  rw [hsize, hn, ← Int.natCast_mul]
  exact ⟨⟨by omega, by omega, Int.natCast_dvd_natCast.mpr ⟨n / p, Nat.mul_comm ..⟩⟩, by
    exact_mod_cast hle⟩

/-- While `Rx` does not work on the buffer, a step of the listener keeps its invariant, and the
bytes it moves are added to those in the ready buffer. -/
theorem listenerNext_ok (hp : 0 < p) (hreads : Reads s.client)
    (hok : ListenerOk p s.client s.client.pReady s.listener)
    (hstep : s.listenerNext p waiting = some s') :
    Reads s'.client ∧ ListenerOk p s'.client s'.client.pReady s'.listener ∧ s'.rx = s.rx ∧
      s'.returned = s.returned ∧
      ∃ cells, s'.moved = s.moved ++ cells ∧ s'.readyOwed = s.readyOwed ++ cells := by
  cases hpc : s.listener with
  | recv =>
      simp only [listenerNext, hpc] at hstep
      split at hstep
      · next client read hresult =>
          cases hstep
          obtain ⟨hreads', hbuf, hready, hflag⟩ := reads_recvClient hreads hresult
          refine ⟨hreads', ?_, rfl, rfl, [], by simp, ?_⟩
          · rw [hpc] at hok
            simpa only [ListenerOk, hready, hflag] using hok
          · simp [readyOwed, hpc, Client.readyCells, hbuf, hready]
      · cases hstep
  | test =>
      simp only [listenerNext, hpc, hreads.rawFlag, true_and] at hstep
      rw [hpc] at hok
      split at hstep
      · next hflag =>
          cases hstep
          refine ⟨hreads, ?_, rfl, rfl, [], by simp, by simp [readyOwed, hpc]⟩
          -- the flag is `0`, so `Rx` has set `pReady` back
          rcases hok with hfree | ⟨hmarked, -⟩
          · exact hfree
          · rw [hflag] at hmarked
            cases hmarked
      · cases hstep
        exact ⟨hreads, hok, rfl, rfl, [], by simp, by simp [readyOwed, hpc]⟩
  | size =>
      simp only [listenerNext, hpc, Option.some.injEq] at hstep
      rw [hpc] at hok
      obtain ⟨hflag, hready⟩ := hok
      subst hstep
      by_cases hnum : numPackages p s.client.pWrite = 0
      · refine ⟨hreads, ?_, rfl, rfl, [], by simp, by simp [readyOwed, hpc, hnum]⟩
        rw [if_neg (not_not.mpr hnum)]
        exact ⟨hflag, .inl hready⟩
      · refine ⟨hreads, ?_, rfl, rfl, [], by simp, by simp [readyOwed, hpc, hnum]⟩
        rw [if_pos hnum]
        exact ⟨hflag, hready, whole_packSize hp hreads hnum⟩
  | copy packSize =>
      simp only [listenerNext, hpc, Option.some.injEq] at hstep
      rw [hpc] at hok
      obtain ⟨hflag, hready, hwhole, hle⟩ := hok
      subst hstep
      -- the ready buffer is empty before the `memcpy` and holds what was moved after it
      refine ⟨{ hreads with }, ⟨hflag, hready, hwhole, hle⟩, rfl, rfl, _, rfl, ?_⟩
      simp only [readyOwed, hpc, Client.readyCells, Option.getD_some, hready, Int.toNat_zero,
        slice_zero, List.nil_append]
      exact slice_blit_of_length _ _ (length_slice ..)
  | advance packSize =>
      simp only [listenerNext, hpc, Option.some.injEq] at hstep
      rw [hpc] at hok
      obtain ⟨hflag, hready, hwhole, hle⟩ := hok
      subst hstep
      refine ⟨{ hreads with }, ⟨hflag, ?_, hwhole, hle⟩, rfl, rfl, [], by simp, ?_⟩
      · simp only [hready, Int.zero_add]
      · simp [readyOwed, hpc, hready, Client.readyCells]
  | shift packSize =>
      simp only [listenerNext, hpc, Option.some.injEq] at hstep
      rw [hpc] at hok
      obtain ⟨hflag, hready, hwhole, hle⟩ := hok
      subst hstep
      have hmax := hreads.pWrite_le
      obtain ⟨hpos, -, -⟩ := id hwhole
      refine ⟨{ rawFlag := hreads.rawFlag, pEnd := hreads.pEnd, inBuf := rfl,
                pWrite_nonneg := by dsimp only; omega, pWrite_le := by dsimp only; omega },
        ⟨hflag, .inr ?_⟩, rfl, rfl, [], by simp, by simp [readyOwed, hpc, Client.readyCells]⟩
      simpa only [hready] using hwhole
  | check =>
      simp only [listenerNext, hpc, Option.some.injEq] at hstep
      rw [hpc] at hok
      obtain ⟨hflag, hready⟩ := hok
      subst hstep
      by_cases hpos : 0 < s.client.pReady
      · refine ⟨hreads, ?_, rfl, rfl, [], by simp, by simp [readyOwed, hpc, hpos]⟩
        rw [if_pos hpos]
        exact ⟨hflag, hready.resolve_left (by omega)⟩
      · refine ⟨hreads, ?_, rfl, rfl, [], by simp, by simp [readyOwed, hpc, hpos]⟩
        rw [if_neg hpos]
        exact .inl ⟨hflag, hready.resolve_right fun hwhole => hpos hwhole.1⟩
  | raise =>
      simp only [listenerNext, hpc, Option.some.injEq] at hstep
      rw [hpc] at hok
      subst hstep
      exact ⟨{ hreads with }, .inr ⟨rfl, hok.2⟩, rfl, rfl, [], by simp,
        by simp [readyOwed, hpc, Client.readyCells]⟩

/-- The part of the state `Rx` works on. -/
structure SameReady (s s' : Handshake) : Prop where
  rx : s'.rx = s.rx
  moved : s'.moved = s.moved
  returned : s'.returned = s.returned
  readyCells : s'.client.readyCells = s.client.readyCells
  pReady : s'.client.pReady = s.client.pReady

/-- While the flag is up the listener reads the connection and nothing else. -/
theorem listenerNext_marked (hreads : Reads s.client) (hmarked : s.Marked)
    (hstep : s.listenerNext p waiting = some s') :
    Reads s'.client ∧ s'.Marked ∧ SameReady s s' := by
  obtain ⟨hflag, hpc | hpc⟩ := hmarked
  · -- at the `recv`
    simp only [listenerNext, hpc] at hstep
    split at hstep
    · next client read hresult =>
        cases hstep
        obtain ⟨hreads', hbuf, hready, hflag'⟩ := reads_recvClient hreads hresult
        refine ⟨hreads', ⟨hflag'.trans hflag, .inr rfl⟩, rfl, rfl, rfl, ?_, hready⟩
        simp only [Client.readyCells, hbuf]
    · cases hstep
  · -- at the test, which fails
    have hup : ¬ (s.client.rawFlag = 1 ∧ s.client.readyFlag = 0) := by simp [hflag]
    simp only [listenerNext, hpc, if_neg hup, Option.some.injEq] at hstep
    subst hstep
    exact ⟨hreads, ⟨hflag, .inl rfl⟩, rfl, rfl, rfl, rfl, rfl⟩

/-- Between the two assignments of `Rx` the listener gets no further than to the statements
that read `pReady`. -/
theorem listenerNext_cleared (hp : 0 < p) (hreads : Reads s.client) (hcleared : s.Cleared)
    (hbefore : s.listener.readsReady = false)
    (hstep : s.listenerNext p waiting = some s') :
    Reads s'.client ∧ (s'.Cleared ∧ ListenerOk p s'.client 0 s'.listener) ∧ SameReady s s' := by
  obtain ⟨hflag, hpc | hpc | hpc | hpc | ⟨packSize, hpc⟩⟩ := hcleared
  · simp only [listenerNext, hpc] at hstep
    split at hstep
    · next client read hresult =>
        cases hstep
        obtain ⟨hreads', hbuf, hready, hflag'⟩ := reads_recvClient hreads hresult
        refine ⟨hreads', ⟨⟨hflag'.trans hflag, by simp⟩, .inl ⟨hflag'.trans hflag, rfl⟩⟩,
          rfl, rfl, rfl, ?_, hready⟩
        simp only [Client.readyCells, hbuf]
    · cases hstep
  · simp only [listenerNext, hpc, if_pos (And.intro hreads.rawFlag hflag),
      Option.some.injEq] at hstep
    subst hstep
    exact ⟨hreads, ⟨⟨hflag, by simp⟩, hflag, rfl⟩, rfl, rfl, rfl, rfl, rfl⟩
  · simp only [listenerNext, hpc, Option.some.injEq] at hstep
    subst hstep
    by_cases hnum : numPackages p s.client.pWrite = 0
    · refine ⟨hreads, ?_, rfl, rfl, rfl, rfl, rfl⟩
      simp only [if_neg (not_not.mpr hnum)]
      exact ⟨⟨hflag, by simp⟩, hflag, .inl rfl⟩
    · refine ⟨hreads, ?_, rfl, rfl, rfl, rfl, rfl⟩
      simp only [if_pos hnum]
      exact ⟨⟨hflag, by simp⟩, hflag, rfl, whole_packSize hp hreads hnum⟩
  -- at the test of `pReady` and at the `memcpy` the listener would read `pReady`
  · simp [hpc, ListenerPc.readsReady] at hbefore
  · simp [hpc, ListenerPc.readsReady] at hbefore

theorem Marked.readyOwed_eq (h : s.Marked) :
    s.readyOwed = slice s.client.readyCells 0 s.client.pReady.toNat := by
  rcases h.2 with hpc | hpc <;> simp [readyOwed, hpc]

/-! ## Steps of `Rx` -/

/-- With the flag up, the listener's invariant is that whole packages are there to be taken. -/
theorem marked_of_flag (hok : ListenerOk p s.client s.client.pReady s.listener)
    (hflag : s.client.readyFlag = 1) : s.Marked ∧ Whole p s.client.pReady := by
  have hup : ¬ s.client.readyFlag = 0 := by simp [hflag]
  cases hpc : s.listener with
  | recv =>
      rw [hpc] at hok
      exact ⟨⟨hflag, .inl hpc⟩, (hok.resolve_left fun h => hup h.1).2⟩
  | test =>
      rw [hpc] at hok
      exact ⟨⟨hflag, .inr hpc⟩, (hok.resolve_left fun h => hup h.1).2⟩
  | size | copy _ | advance _ | shift _ | check | raise =>
      rw [hpc] at hok
      exact absurd hok.1 hup

theorem Cleared.readyOwed_eq (h : s.Cleared) :
    s.readyOwed = slice s.client.readyCells 0 s.client.pReady.toNat := by
  rcases h.2 with hpc | hpc | hpc | hpc | ⟨packSize, hpc⟩ <;> simp [readyOwed, hpc]

theorem Marked.listenerOk (h : s.Marked) {client : Client} {ready : ℤ}
    (hready : (client.readyFlag = 0 ∧ ready = 0) ∨ (client.readyFlag = 1 ∧ Whole p ready)) :
    ListenerOk p client ready s.listener := by
  rcases h.2 with hpc | hpc <;> (rw [hpc]; exact hready)

theorem Invariant.rxNext (hp : 0 < p) (hinv : s.Invariant p) : (s.rxNext p).Invariant p := by
  obtain ⟨hreads, hplaces, hmoved⟩ := hinv
  cases hpc : s.rx with
  | idle =>
      simp only [Places, hpc] at hplaces
      by_cases hflag : s.client.readyFlag = 1
      · rw [Handshake.rxNext, hpc]
        simp only [if_pos hflag]
        simp only [owed, hpc] at hmoved
        exact ⟨hreads, marked_of_flag hplaces hflag, hmoved⟩
      · have hsame : s.rxNext p = s := by simp [Handshake.rxNext, hpc, hflag]
        rw [hsame]
        exact ⟨hreads, by simpa only [Places, hpc] using hplaces, hmoved⟩
  | size =>
      simp only [Places, hpc] at hplaces
      simp only [owed, hpc] at hmoved
      rw [Handshake.rxNext, hpc]
      exact ⟨hreads, ⟨hplaces.1, hplaces.2, rfl⟩, hmoved⟩
  | fetch size =>
      simp only [Places, hpc] at hplaces
      obtain ⟨hmarked, ⟨hpos, hmax, hdvd⟩, hready⟩ := hplaces
      have hle : (p : ℤ) ≤ size := Int.le_of_dvd hpos hdvd
      simp only [owed, hpc, hmarked.readyOwed_eq, hready] at hmoved
      rw [Handshake.rxNext, hpc]
      by_cases hremain : size - p = 0
      · obtain rfl : size = p := by omega
        simp only [if_neg (not_not.mpr hremain)]
        exact ⟨hreads, hmarked, hmoved⟩
      · simp only [if_pos hremain]
        refine ⟨hreads, ⟨hmarked, by omega, by omega, Int.dvd_sub hdvd (Int.dvd_refl _)⟩, ?_⟩
        -- what is owed is the package in `pDat` and the rest behind it
        have hsize : size.toNat = p + (size - p).toNat := by omega
        rw [hsize, slice_add, Nat.zero_add] at hmoved
        exact hmoved
  | shift remain pDat =>
      simp only [Places, hpc] at hplaces
      simp only [owed, hpc] at hmoved
      rw [Handshake.rxNext, hpc]
      refine ⟨{ hreads with }, hplaces, ?_⟩
      simp only [owed, Client.readyCells, Option.getD_some, Int.toNat_natCast]
      rw [slice_blit_of_length _ _ (length_slice ..)]
      exact hmoved
  | store remain pDat =>
      simp only [Places, hpc] at hplaces
      simp only [owed, hpc] at hmoved
      rw [Handshake.rxNext, hpc]
      refine ⟨{ hreads with }, hplaces.1.listenerOk (.inr ⟨hplaces.1.1, hplaces.2⟩), ?_⟩
      have hstill : Marked { s with client := { s.client with pReady := remain },
                                    rx := .ret pDat } := hplaces.1
      simp only [owed, hstill.readyOwed_eq]
      exact hmoved
  | clear pDat =>
      simp only [Places, hpc] at hplaces
      simp only [owed, hpc] at hmoved
      rw [Handshake.rxNext, hpc]
      -- from here on the listener may pass its test, and the invariant is about `pReady = 0`,
      -- which is still to be assigned
      refine ⟨{ hreads with }, ⟨⟨rfl, ?_⟩, hplaces.listenerOk (.inl ⟨rfl, rfl⟩)⟩, hmoved⟩
      rcases hplaces.2 with hlistener | hlistener
      · exact .inl hlistener
      · exact .inr (.inl hlistener)
  | reset pDat =>
      simp only [Places, hpc] at hplaces
      simp only [owed, hpc] at hmoved
      rw [Handshake.rxNext, hpc]
      refine ⟨{ hreads with }, hplaces.2, ?_⟩
      have hstill : Cleared { s with client := { s.client with pReady := 0 }, rx := .ret pDat } :=
        hplaces.1
      simpa only [owed, hstill.readyOwed_eq, Int.toNat_zero, slice_zero, List.append_nil]
        using hmoved
  | ret pDat =>
      simp only [Places, hpc] at hplaces
      simp only [owed, hpc] at hmoved
      rw [Handshake.rxNext, hpc]
      refine ⟨hreads, hplaces, ?_⟩
      rw [← List.append_assoc] at hmoved
      exact hmoved

/-! ## Runs -/

theorem SameReady.owed_eq (h : SameReady s s') (hready : s'.readyOwed = s.readyOwed) :
    s'.owed p = s.owed p := by
  unfold owed
  rw [h.rx]
  cases s.rx <;> simp only [h.readyCells, hready]

/-- A step that leaves the ready buffer alone moves no byte. -/
theorem SameReady.moved_eq (h : SameReady s s') (hready : s'.readyOwed = s.readyOwed)
    (hmoved : s.moved = s.returned ++ s.owed p) : s'.moved = s'.returned ++ s'.owed p := by
  rw [h.moved, h.returned, h.owed_eq hready]
  exact hmoved

theorem Invariant.listenerNext_of_marked (hinv : s.Invariant p) (hmarked : s.Marked)
    (hplaces : ∀ t : Handshake, t.Marked → SameReady s t → t.Places p)
    (hstep : s.listenerNext p waiting = some s') : s'.Invariant p := by
  obtain ⟨hreads', hmarked', hsame⟩ := listenerNext_marked hinv.reads hmarked hstep
  refine ⟨hreads', hplaces s' hmarked' hsame, hsame.moved_eq ?_ hinv.moved_eq⟩
  rw [hmarked'.readyOwed_eq, hmarked.readyOwed_eq, hsame.readyCells, hsame.pReady]

theorem Invariant.listenerNext (hp : 0 < p) (hinv : s.Invariant p)
    (hcond : s.NotOvertaken (.listener waiting)) (hstep : s.listenerNext p waiting = some s') :
    s'.Invariant p := by
  have hplaces := hinv.places
  have hmoved := hinv.moved_eq
  cases hpc : s.rx with
  | idle | ret pDat =>
      -- `Rx` does not work on the buffer
      simp only [Places, hpc] at hplaces
      simp only [owed, hpc] at hmoved
      obtain ⟨hreads', hok', hrx, hreturned, cells, hmoved', howed'⟩ :=
        listenerNext_ok hp hinv.reads hplaces hstep
      refine ⟨hreads', by simpa only [Places, hrx, hpc] using hok', ?_⟩
      simp only [owed, hrx, hpc, hmoved', hreturned, howed', hmoved, List.append_assoc]
  | size | fetch size =>
      -- the flag is up, so the listener leaves the ready buffer alone
      simp only [Places, hpc] at hplaces
      apply hinv.listenerNext_of_marked hplaces.1 _ hstep
      intro t ht hsame
      simpa only [Places, hsame.rx, hpc, hsame.pReady] using And.intro ht hplaces.2
  | shift remain pDat | store remain pDat =>
      simp only [Places, hpc] at hplaces
      apply hinv.listenerNext_of_marked hplaces.1 _ hstep
      intro t ht hsame
      simpa only [Places, hsame.rx, hpc] using And.intro ht hplaces.2
  | clear pDat =>
      simp only [Places, hpc] at hplaces
      apply hinv.listenerNext_of_marked hplaces _ hstep
      intro t ht hsame
      simpa only [Places, hsame.rx, hpc] using ht
  | reset pDat =>
      -- the flag is down and `pReady` is not set back: the condition keeps the listener off
      simp only [Places, hpc] at hplaces
      have hbefore : s.listener.readsReady = false := by
        simpa [NotOvertaken, hpc, RxPc.betweenAssignments] using hcond
      obtain ⟨hreads', hplaces', hsame⟩ :=
        listenerNext_cleared hp hinv.reads hplaces.1 hbefore hstep
      refine ⟨hreads', by simpa only [Places, hsame.rx, hpc] using hplaces',
        hsame.moved_eq ?_ hmoved⟩
      rw [hplaces'.1.readyOwed_eq, hplaces.1.readyOwed_eq, hsame.readyCells, hsame.pReady]

/-- The slot as `accept` leaves it is a start. -/
theorem invariant_initial (p : ℕ) {conn : Connection} (hinBuf : conn.inBuf = true)
    (hreadyBuf : conn.readyBuf = true) (client : Client) :
    (initial (acceptClient conn client)).Invariant p := by
  rw [acceptClient, if_pos ⟨hinBuf, hreadyBuf⟩]
  exact ⟨⟨rfl, rfl, rfl, le_rfl, by simp [initial]⟩, .inl ⟨rfl, rfl⟩, rfl⟩

/-- The listener comes to its `memcpy` only when the ready buffer is empty. -/
theorem Places.of_copy (h : s.Places p) {packSize : ℤ} (hcopy : s.listener = .copy packSize)
    (hreset : s.rx.betweenAssignments = false) : s.client.pReady = 0 ∧ Whole p packSize := by
  have hunmarked : ¬ s.Marked := by
    rintro ⟨-, hpc | hpc⟩ <;> simp [hcopy] at hpc
  cases hpc : s.rx with
  | idle | ret _ =>
      simp only [Places, hpc, hcopy] at h
      exact ⟨h.2.1, h.2.2.1⟩
  | size | fetch _ | shift _ _ | store _ _ =>
      simp only [Places, hpc] at h
      exact absurd h.1 hunmarked
  | clear _ =>
      simp only [Places, hpc] at h
      exact absurd h hunmarked
  | reset _ => simp [hpc, RxPc.betweenAssignments] at hreset

/-- **The handshake.**  In every run from an accepted connection in which the listener does not
read `pReady` between the two assignments of `Rx`, its `memcpy` starts at offset `0` of the
ready buffer and ends inside it, and the bytes moved are at each point the bytes returned and
the bytes still owed. -/
theorem handshake (p : ℕ) (hp : 1 ≤ p) (conn : Connection) (hinBuf : conn.inBuf = true)
    (hreadyBuf : conn.readyBuf = true) (client : Client) (turns : List Turn) (s : Handshake)
    (hrun : Run (Guarded NotOvertaken (StepOf (next p))) (initial (acceptClient conn client))
      turns s) :
    (∀ packSize, s.listener = .copy packSize → s.rx.betweenAssignments = false →
      s.client.pReady = 0 ∧ 0 ≤ packSize ∧ packSize ≤ 65535) ∧
    s.moved = s.returned ++ s.owed p := by
  have hinv : s.Invariant p := by
    refine hrun.invariant ?_ (invariant_initial p hinBuf hreadyBuf client)
    rintro s turn s' hinv ⟨hcond, hstep⟩
    cases turn with
    | listener waiting => exact hinv.listenerNext hp hcond hstep
    | rx =>
        cases hstep
        exact hinv.rxNext hp
  refine ⟨fun packSize hcopy hreset => ?_, hinv.moved_eq⟩
  obtain ⟨hready, hpos, hmax, -⟩ := hinv.places.of_copy hcopy hreset
  exact ⟨hready, hpos.le, hmax⟩

/-- The slot of a connection both of whose buffers are allocated. -/
def accepted : Handshake :=
  initial (acceptClient { desc := 5, inBuf := true, readyBuf := true } .zero)

/-- One byte is read and moved, and `Rx` returns it, in turn. -/
theorem handshake_one_byte :
    ∃ s, Run (Guarded NotOvertaken (StepOf (next 1))) accepted
        [.listener (some [7]), .listener none, .listener none, .listener none, .listener none,
          .listener none, .listener none, .listener none, .rx, .rx, .rx, .rx, .rx, .rx] s ∧
      s.returned = [7] ∧ s.moved = s.returned ++ s.owed 1 := by
  have hrun : Run (Guarded NotOvertaken (StepOf (next 1))) accepted
      [.listener (some [7]), .listener none, .listener none, .listener none, .listener none,
        .listener none, .listener none, .listener none, .rx, .rx, .rx, .rx, .rx, .rx] _ :=
    run_guarded_iff_exec.mpr rfl
  exact ⟨_, hrun, rfl, (handshake 1 le_rfl { desc := 5, inBuf := true, readyBuf := true } rfl rfl
    .zero _ _ hrun).2⟩

/-- The listener moves the second byte while `Rx`, which is about to return the first, stands
between its two assignments.  The `memcpy` starts at offset `1`, and the byte is never
returned. -/
theorem handshake_overtaken :
    ∃ s t, Run (StepOf (next 1)) accepted
        [.listener (some [7]), .listener none, .listener none, .listener none, .listener none,
          .listener none, .listener none, .listener none, .rx, .rx, .rx, .rx,
          .listener (some [8]), .listener none, .listener none] s ∧
      s.listener = .copy 1 ∧ s.client.pReady = 1 ∧
      Run (StepOf (next 1)) s [.listener none, .listener none, .rx, .rx] t ∧
      t.moved = [7, 8] ∧ t.returned = [7] ∧ t.owed 1 = [] :=
  ⟨_, _, run_iff_exec.mpr rfl, rfl, rfl, run_iff_exec.mpr rfl, rfl, rfl, rfl⟩

end Handshake

end XbeeAssignment.Socket
