import XbeeAssignment.Lib.Memory
import XbeeAssignment.Lib.Transition
import Mathlib.Data.Fin.VecNotation
import Mathlib.Logic.Function.Basic

/-!
# `Socket::RxListen` and `Socket::Rx`

The listener makes passes over the ten slots of `ClientList`: it accepts at most
one connection, then reads from every slot, then moves the whole packages of
every slot from its in buffer to its ready buffer.  With a callback the packages
are handed out at once, and without one the slot is marked ready and `Rx` takes
one package at a time from the first ready slot.

A pointer into a buffer is its offset from the start of that buffer, in exact
integers, and a buffer is absent while the pointers of the slot do not belong to
one: before the first `accept`, and after an `accept` whose `malloc` fails.  A
division by zero, a range outside the 65535 bytes of a buffer, and a callback
loop that counts downwards halt the model with the slot they occur in.
-/

namespace XbeeAssignment

open Memory Transition

/-- `MAX_CLIENTS`. -/
abbrev Socket.maxClients : ℕ := 10

/-- `struct _ClientList`, less the printed address. -/
structure Socket.Client where
  id : ℤ
  /-- The bytes behind `pInBuf`. -/
  pInBuf : Option (ℕ → UInt8)
  /-- The bytes behind `pReadyBuf`. -/
  pReadyBuf : Option (ℕ → UInt8)
  /-- Offset from `pInBuf`. -/
  pWrite : ℤ
  /-- Offset from `pInBuf`. -/
  pEnd : ℤ
  /-- Offset from `pReadyBuf`. -/
  pReady : ℤ
  /-- Whether the slot is in use. -/
  flag : ℤ
  rawFlag : ℤ
  readyFlag : ℤ

/-- The entry with every byte zero, as `DestroyRx` leaves it. -/
def Socket.Client.zero : Socket.Client :=
  { id := 0, pInBuf := none, pReadyBuf := none, pWrite := 0, pEnd := 0, pReady := 0, flag := 0,
    rawFlag := 0, readyFlag := 0 }

/-- The receiving half of a `Socket`. -/
structure Socket where
  rxSocketDesc : ℤ
  packageSize : ℤ
  /-- Whether a callback is set. -/
  callback : Bool
  clientList : Fin Socket.maxClients → Socket.Client

namespace Socket

inductive Fault
  | divisionByZero
  /-- A `memcpy`, `memmove` or `recv` range that is not inside a buffer of the slot. -/
  | outOfRange
  /-- The callback loop does not count upwards. -/
  | endlessLoop

/-- The range is inside a buffer. -/
def InRange (off len : ℤ) : Prop :=
  0 ≤ off ∧ 0 ≤ len ∧ off + len ≤ 65535

instance (off len : ℤ) : Decidable (InRange off len) :=
  inferInstanceAs (Decidable (_ ∧ _ ∧ _))

/-! ## The constructor, `InitRx` and `accept` -/

/-- An object constructed in memory that holds a package size and a list of clients, which the
constructor does not set. -/
def constructed (packageSize : ℤ) (clientList : Fin maxClients → Client) : Socket :=
  { rxSocketDesc := -1, packageSize := packageSize, callback := false, clientList := clientList }

/-- What the calls of `InitRx` to the system return. -/
structure InitResults where
  socket : ℤ
  setsockopt : ℤ
  bind : ℤ

/-- Every call succeeds. -/
def InitResults.success (desc : ℤ) : InitResults :=
  { socket := desc, setsockopt := 0, bind := 0 }

/-- `InitRx`, up to the thread it starts. -/
def initRx (sock : Socket) (packageSize : ℤ) (callback : Bool) (results : InitResults) :
    Socket × ℤ :=
  let sock := { sock with packageSize := packageSize, callback := callback,
                          rxSocketDesc := results.socket }
  if results.socket = -1 then (sock, 0)
  else if results.setsockopt ≠ 0 then (sock, 0)
  else if results.bind < 0 then (sock, 0)
  else ({ sock with clientList := fun i => { sock.clientList i with flag := 0 } }, 1)

/-- The descriptor `accept` returns, `-1` if there is no connection, and whether the two
`malloc`s that follow succeed. -/
structure Connection where
  desc : ℤ
  inBuf : Bool
  readyBuf : Bool

/-- The first entry whose `Flag` is `0`. -/
def freeSlot (sock : Socket) : Option (Fin maxClients) :=
  (List.finRange maxClients).find? fun i => (sock.clientList i).flag = 0

/-- The entry a connection is stored in. -/
def acceptClient (conn : Connection) (client : Client) : Client :=
  if conn.inBuf ∧ conn.readyBuf then
    { client with
      id := conn.desc
      pInBuf := some fun _ => 0
      pReadyBuf := some fun _ => 0
      pWrite := 0
      pEnd := 65535
      pReady := 0
      -- `Flag` is not set
      rawFlag := 1
      readyFlag := 0 }
  else { client with id := conn.desc, pInBuf := none, pReadyBuf := none }

/-! ## One slot in one pass -/

/-- Reading from one open connection: `waiting` is what `recv` finds, or `none` when it
returns `-1`.  The second component is what was read. -/
def recvClient (waiting : Option (List UInt8)) (client : Client) :
    Except Fault (Client × List UInt8) :=
  if client.rawFlag = 1 then
    match client.pInBuf with
    | none => .error .outOfRange
    | some inBuf =>
        let room := client.pEnd - client.pWrite
        if InRange client.pWrite room then
          let read := (waiting.getD []).take room.toNat
          .ok ({ client with
                 pInBuf := some (blit inBuf client.pWrite.toNat read)
                 pWrite := client.pWrite + read.length }, read)
        else .error .outOfRange
  else .ok (client, [])

/-- `NumPackages`, the packages in the in buffer that fit into a ready buffer. -/
def numPackages (packageSize rawSize : ℤ) : ℤ :=
  min (rawSize.tdiv packageSize) (Int.tdiv 65535 packageSize)

/-- The packages of the in buffer always fit. -/
theorem numPackages_natCast {p n : ℕ} (hn : n ≤ 65535) : numPackages p n = (n / p : ℕ) := by
  have hle : n / p ≤ 65535 / p := Nat.div_le_div_right hn
  have hraw : Int.tdiv n p = (n / p : ℕ) := (Int.ofNat_tdiv n p).symm
  have hfit : Int.tdiv 65535 p = (65535 / p : ℕ) := (Int.ofNat_tdiv 65535 p).symm
  rw [numPackages, hraw, hfit]
  exact min_eq_left (Int.ofNat_le.mpr hle)

/-- Moving the whole packages to the ready buffer and the rest of the in buffer down. -/
def moveRaw (packageSize : ℤ) (client : Client) : Except Fault Client :=
  if packageSize = 0 then .error .divisionByZero
  else if numPackages packageSize client.pWrite = 0 then .ok client
  else
    match client.pInBuf, client.pReadyBuf with
    | some inBuf, some readyBuf =>
        let packSize := numPackages packageSize client.pWrite * packageSize
        let remain := client.pWrite - packSize
        if InRange client.pReady packSize ∧ InRange 0 packSize ∧
            (0 < remain → InRange packSize remain) then
          .ok { client with
                pReadyBuf := some (blit readyBuf client.pReady.toNat (slice inBuf 0 packSize.toNat))
                pReady := client.pReady + packSize
                -- nothing is moved down unless `Remain > 0`
                pInBuf := some (blit inBuf 0 (slice inBuf packSize.toNat remain.toNat))
                pWrite := remain }
        else .error .outOfRange
    | _, _ => .error .outOfRange

/-- The packages the loop over `k` hands to the callback. -/
def callbackLoop (readyBuf : ℕ → UInt8) (packageSize size k : ℕ) : List (List UInt8) :=
  if 0 < packageSize ∧ k < size then
    slice readyBuf k packageSize :: callbackLoop readyBuf packageSize size (k + packageSize)
  else []
termination_by size - k

theorem length_of_mem_callbackLoop {readyBuf : ℕ → UInt8} {packageSize size k : ℕ}
    {package : List UInt8} (hmem : package ∈ callbackLoop readyBuf packageSize size k) :
    package.length = packageSize := by
  induction k using callbackLoop.induct packageSize size with
  | case1 k h ih =>
      rw [callbackLoop, if_pos h] at hmem
      rcases List.mem_cons.mp hmem with rfl | hrest
      · exact length_slice ..
      · exact ih hrest
  | case2 k h =>
      rw [callbackLoop, if_neg h] at hmem
      cases hmem

/-- The loop hands out everything from `k` on if that is a number of whole packages. -/
theorem flatten_callbackLoop (readyBuf : ℕ → UInt8) {packageSize size k : ℕ}
    (hpos : 0 < packageSize) (hle : k ≤ size) (hdvd : packageSize ∣ size - k) :
    (callbackLoop readyBuf packageSize size k).flatten = slice readyBuf k (size - k) := by
  induction k using callbackLoop.induct packageSize size with
  | case1 k h ih =>
      -- what is left is not empty and a number of packages, so it holds one
      have hpackage : packageSize ≤ size - k := Nat.le_of_dvd (by omega) hdvd
      have hrest : packageSize ∣ size - (k + packageSize) := by
        rw [← Nat.sub_sub]
        exact Nat.dvd_sub hdvd (Nat.dvd_refl _)
      rw [callbackLoop, if_pos h, List.flatten_cons, ih (by omega) hrest, ← Nat.sub_sub,
        ← slice_split readyBuf k hpackage]
  | case2 k h =>
      obtain rfl : k = size := by omega
      rw [callbackLoop, if_neg h, Nat.sub_self, slice_zero, List.flatten_nil]

/-- Handing out what is in the ready buffer, or marking it for `Rx`.  The second component is
what the callback got. -/
def raiseReady (packageSize : ℤ) (callback : Bool) (client : Client) :
    Except Fault (Client × List (List UInt8)) :=
  if 0 < client.pReady then
    if callback then
      match client.pReadyBuf with
      | none => .error .outOfRange
      | some readyBuf =>
          if 0 < packageSize then
            .ok ({ client with readyFlag := 0, pReady := 0 },
              callbackLoop readyBuf packageSize.toNat client.pReady.toNat 0)
          else .error .endlessLoop
    else .ok ({ client with readyFlag := 1 }, [])
  else .ok (client, [])

/-- The second loop of a pass, for one slot. -/
def moveClient (packageSize : ℤ) (callback : Bool) (client : Client) :
    Except Fault (Client × List (List UInt8)) :=
  if client.rawFlag = 1 ∧ client.readyFlag = 0 then
    (moveRaw packageSize client).bind (raiseReady packageSize callback)
  else .ok (client, [])

/-! ## `Rx` -/

/-- The first entry whose `ReadyFlag` is `1`, unless the listening socket is closed. -/
def readySlot (sock : Socket) : Option (Fin maxClients) :=
  if sock.rxSocketDesc = -1 then none
  else (List.finRange maxClients).find? fun i => (sock.clientList i).readyFlag = 1

/-- Taking one package out of the ready buffer. -/
def rxClient (packageSize : ℤ) (client : Client) : Except Fault (Client × List UInt8) :=
  match client.pReadyBuf with
  | none => .error .outOfRange
  | some readyBuf =>
      let remain := client.pReady - packageSize
      if InRange 0 packageSize then
        -- a negative `Remain` goes to the `memmove` as well
        if remain ≠ 0 then
          if InRange packageSize remain then
            .ok ({ client with
                   pReadyBuf := some (blit readyBuf 0
                     (slice readyBuf packageSize.toNat remain.toNat))
                   pReady := remain },
              slice readyBuf 0 packageSize.toNat)
          else .error .outOfRange
        else .ok ({ client with readyFlag := 0, pReady := 0 },
          slice readyBuf 0 packageSize.toNat)
      else .error .outOfRange

/-! ## Runs of the listener and of `Rx` -/

/-- What a slot's connection has sent and what was handed out of it. -/
structure Traffic where
  received : List UInt8
  delivered : List (List UInt8)

/-- A `Socket` with the slots its connections were stored in and their traffic. -/
structure Session where
  sock : Socket
  accepted : List (Fin maxClients)
  traffic : Fin maxClients → Traffic

inductive RxEvent
  | accept (conn : Connection)
  | recv (slot : Fin maxClients) (waiting : Option (List UInt8))
  | move (slot : Fin maxClients)
  /-- The application calls `Rx`. -/
  | rx

/-- The step stores a connection. -/
def RxEvent.accepts : RxEvent → Bool
  | .accept conn => decide (0 ≤ conn.desc)
  | _ => false

/-- Why a run ends. -/
inductive Halt
  /-- `exit(0)`, when there is no free entry. -/
  | exited
  | fault (slot : Fin maxClients) (fault : Fault)

namespace Session

/-- A run that starts with `sock`. -/
def start (sock : Socket) : Session :=
  { sock := sock, accepted := [], traffic := fun _ => ⟨[], []⟩ }

/-- A listener for packages of two bytes, in memory that was zero, before its first pass. -/
def sampleStart : Session :=
  start (initRx (constructed 0 fun _ => .zero) 2 false (.success 4)).1

/-- The session after slot `i` and its traffic have changed. -/
def store (s : Session) (i : Fin maxClients) (client : Client) (traffic : Traffic) : Session :=
  { s with
    sock := { s.sock with clientList := Function.update s.sock.clientList i client }
    traffic := Function.update s.traffic i traffic }

/-- The session after an operation on slot `i` that turned its entry into `result`'s, where
`log` extends the traffic by what the operation read or handed out. -/
def finish {α : Type} (s : Session) (i : Fin maxClients) (log : Traffic → α → Traffic)
    (result : Except Fault (Client × α)) : Except Halt Session :=
  match result with
  | .ok (client, output) => .ok (s.store i client (log (s.traffic i) output))
  | .error fault => .error (.fault i fault)

/-- One step of the listener, or one call of `Rx`. -/
def step (s : Session) : RxEvent → Except Halt Session
  | .accept conn =>
      if 0 ≤ conn.desc then
        match s.sock.freeSlot with
        | none => .error .exited
        | some i =>
            .ok { s.store i (acceptClient conn (s.sock.clientList i)) ⟨[], []⟩ with
                  accepted := s.accepted ++ [i] }
      else .ok s
  | .recv i waiting =>
      s.finish i (fun t read => { t with received := t.received ++ read })
        (recvClient waiting (s.sock.clientList i))
  | .move i =>
      s.finish i (fun t packages => { t with delivered := t.delivered ++ packages })
        (moveClient s.sock.packageSize s.sock.callback (s.sock.clientList i))
  | .rx =>
      match s.sock.readySlot with
      | none => .ok s
      | some i =>
          s.finish i (fun t package => { t with delivered := t.delivered ++ [package] })
            (rxClient s.sock.packageSize (s.sock.clientList i))

/-- The step as a partial function, which ends at a halt. -/
def next (s : Session) (event : RxEvent) : Option Session :=
  (s.step event).toOption

variable {s s' : Session}

theorem stepOf_next {event : RxEvent} : StepOf next s event s' ↔ s.step event = .ok s' := by
  rw [StepOf, next]
  cases s.step event <;> simp [Except.toOption]

theorem finish_eq_ok {α : Type} {i : Fin maxClients} {log : Traffic → α → Traffic}
    {result : Except Fault (Client × α)} (h : s.finish i log result = .ok s') :
    ∃ client output, result = .ok (client, output) ∧
      s' = s.store i client (log (s.traffic i) output) := by
  cases result with
  | error fault => cases h
  | ok pair =>
      cases h
      exact ⟨pair.1, pair.2, rfl, rfl⟩

theorem finish_eq_fault {α : Type} {i j : Fin maxClients} {log : Traffic → α → Traffic}
    {result : Except Fault (Client × α)} {fault : Fault}
    (h : s.finish i log result = .error (.fault j fault)) : i = j ∧ result = .error fault := by
  cases result with
  | error other =>
      cases h
      exact ⟨rfl, rfl⟩
  | ok pair => cases h

@[simp] theorem store_clientList_self (s : Session) (i : Fin maxClients) (client : Client)
    (traffic : Traffic) : (s.store i client traffic).sock.clientList i = client := by
  simp [store]

@[simp] theorem store_clientList_of_ne (s : Session) {i j : Fin maxClients} (client : Client)
    (traffic : Traffic) (hne : j ≠ i) :
    (s.store i client traffic).sock.clientList j = s.sock.clientList j := by
  simp [store, hne]

@[simp] theorem store_traffic_self (s : Session) (i : Fin maxClients) (client : Client)
    (traffic : Traffic) : (s.store i client traffic).traffic i = traffic := by
  simp [store]

@[simp] theorem store_traffic_of_ne (s : Session) {i j : Fin maxClients} (client : Client)
    (traffic : Traffic) (hne : j ≠ i) : (s.store i client traffic).traffic j = s.traffic j := by
  simp [store, hne]

theorem readyFlag_of_readySlot {sock : Socket} {i : Fin maxClients}
    (h : sock.readySlot = some i) : (sock.clientList i).readyFlag = 1 := by
  unfold readySlot at h
  split at h
  · cases h
  · simpa using List.find?_some h

/-- What a step can do. -/
inductive Stepped (s : Session) : RxEvent → Session → Prop
  /-- There is no connection to accept. -/
  | refused {conn : Connection} (h : (RxEvent.accept conn).accepts = false) :
      Stepped s (.accept conn) s
  | accept {conn : Connection} {i : Fin maxClients}
      (haccepts : (RxEvent.accept conn).accepts = true) (hfree : s.sock.freeSlot = some i) :
      Stepped s (.accept conn)
        { s.store i (acceptClient conn (s.sock.clientList i)) ⟨[], []⟩ with
          accepted := s.accepted ++ [i] }
  | recv {i : Fin maxClients} {waiting : Option (List UInt8)} {client : Client}
      {read : List UInt8} (h : recvClient waiting (s.sock.clientList i) = .ok (client, read)) :
      Stepped s (.recv i waiting)
        (s.store i client { s.traffic i with received := (s.traffic i).received ++ read })
  | move {i : Fin maxClients} {client : Client} {packages : List (List UInt8)}
      (h : moveClient s.sock.packageSize s.sock.callback (s.sock.clientList i) =
        .ok (client, packages)) :
      Stepped s (.move i)
        (s.store i client { s.traffic i with delivered := (s.traffic i).delivered ++ packages })
  /-- No slot is ready. -/
  | unready : Stepped s .rx s
  | rx {i : Fin maxClients} {client : Client} {package : List UInt8}
      (hready : (s.sock.clientList i).readyFlag = 1)
      (h : rxClient s.sock.packageSize (s.sock.clientList i) = .ok (client, package)) :
      Stepped s .rx
        (s.store i client { s.traffic i with delivered := (s.traffic i).delivered ++ [package] })

theorem step_cases {event : RxEvent} (hstep : s.step event = .ok s') : Stepped s event s' := by
  cases event with
  | accept conn =>
      simp only [step] at hstep
      split at hstep
      · next hdesc =>
          cases hfree : s.sock.freeSlot with
          | none =>
              rw [hfree] at hstep
              cases hstep
          | some i =>
              rw [hfree] at hstep
              cases hstep
              exact .accept (by simpa [RxEvent.accepts] using hdesc) hfree
      · next hdesc =>
          cases hstep
          exact .refused (by simpa [RxEvent.accepts] using hdesc)
  | recv i waiting =>
      simp only [step] at hstep
      obtain ⟨client, read, hresult, rfl⟩ := finish_eq_ok hstep
      exact .recv hresult
  | move i =>
      simp only [step] at hstep
      obtain ⟨client, packages, hresult, rfl⟩ := finish_eq_ok hstep
      exact .move hresult
  | rx =>
      simp only [step] at hstep
      cases hready : s.sock.readySlot with
      | none =>
          rw [hready] at hstep
          cases hstep
          exact .unready
      | some i =>
          rw [hready] at hstep
          obtain ⟨client, package, hresult, rfl⟩ := finish_eq_ok hstep
          exact .rx (readyFlag_of_readySlot hready) hresult

/-- A fault of a slot is a fault of one of the three operations on it. -/
theorem step_fault {event : RxEvent} {i : Fin maxClients} {fault : Fault}
    (hstep : s.step event = .error (.fault i fault)) :
    (∃ waiting, recvClient waiting (s.sock.clientList i) = .error fault) ∨
      moveClient s.sock.packageSize s.sock.callback (s.sock.clientList i) = .error fault ∨
      ((s.sock.clientList i).readyFlag = 1 ∧
        rxClient s.sock.packageSize (s.sock.clientList i) = .error fault) := by
  cases event with
  | accept conn =>
      simp only [step] at hstep
      split at hstep
      · split at hstep <;> cases hstep
      · cases hstep
  | recv j waiting =>
      simp only [step] at hstep
      obtain ⟨rfl, hresult⟩ := finish_eq_fault hstep
      exact .inl ⟨waiting, hresult⟩
  | move j =>
      simp only [step] at hstep
      obtain ⟨rfl, hresult⟩ := finish_eq_fault hstep
      exact .inr (.inl hresult)
  | rx =>
      simp only [step] at hstep
      cases hready : s.sock.readySlot with
      | none =>
          rw [hready] at hstep
          cases hstep
      | some j =>
          rw [hready] at hstep
          obtain ⟨rfl, hresult⟩ := finish_eq_fault hstep
          exact .inr (.inr ⟨readyFlag_of_readySlot hready, hresult⟩)

/-- The package size and the callback are set by `InitRx` only. -/
theorem step_settings {event : RxEvent} (hstep : s.step event = .ok s') :
    s'.sock.packageSize = s.sock.packageSize ∧ s'.sock.callback = s.sock.callback := by
  cases step_cases hstep with
  | refused _ | accept _ _ | recv _ | move _ | unready | rx _ _ => exact ⟨rfl, rfl⟩

end Session

/-- A pass of the listener, or a call of `Rx` between two passes. -/
inductive RxCall
  | pass (conn : Connection) (waiting : Fin maxClients → Option (List UInt8))
  | rx

/-- The steps of a call. -/
def RxCall.events : RxCall → List RxEvent
  | .pass conn waiting =>
      .accept conn :: (List.finRange maxClients).map (fun i => .recv i (waiting i)) ++
        (List.finRange maxClients).map .move
  | .rx => [.rx]

end Socket

end XbeeAssignment
