import XbeeAssignment.Socket.Listener

/-!
# Which slot a connection is stored in

`accept` looks for an entry whose `Flag` is `0`, and `Flag` is documented as the
state of the slot, with `0` for a slot that is not in use.  But `InitRx` sets every
`Flag` to `0` and nothing ever sets one to anything else (`AllFree`): `accept`
marks the slot with `RawFlag` only.  So every connection of a run is stored in
slot `0`, over the one before it, and connections keep their slots exactly in the
runs that accept at most one (`fresh_slots_iff`).
-/

namespace XbeeAssignment.Socket

open Transition

/-! ## What the operations on a slot leave alone -/

/-- Neither `Flag` nor `RawFlag` has changed. -/
structure Client.SameFlags (client client' : Client) : Prop where
  flag : client'.flag = client.flag
  rawFlag : client'.rawFlag = client.rawFlag

section

variable {client client' : Client}

theorem Client.SameFlags.refl (client : Client) : client.SameFlags client := ⟨rfl, rfl⟩

theorem Client.SameFlags.trans {client'' : Client} (h : client.SameFlags client')
    (h' : client'.SameFlags client'') : client.SameFlags client'' :=
  ⟨h'.flag.trans h.flag, h'.rawFlag.trans h.rawFlag⟩

@[simp] theorem acceptClient_flag (conn : Connection) (client : Client) :
    (acceptClient conn client).flag = client.flag := by
  unfold acceptClient
  split <;> rfl

theorem recvClient_flags {waiting : Option (List UInt8)} {read : List UInt8}
    (h : recvClient waiting client = .ok (client', read)) : client.SameFlags client' := by
  unfold recvClient at h
  split at h
  · split at h
    · cases h
    · dsimp only at h
      split at h <;> cases h
      exact ⟨rfl, rfl⟩
  · cases h
    exact .refl client

theorem moveRaw_flags {packageSize : ℤ} (h : moveRaw packageSize client = .ok client') :
    client.SameFlags client' := by
  unfold moveRaw at h
  split at h
  · cases h
  split at h
  · cases h
    exact .refl client
  split at h
  · dsimp only at h
    split at h <;> cases h
    exact ⟨rfl, rfl⟩
  · cases h

theorem raiseReady_flags {packageSize : ℤ} {callback : Bool} {packages : List (List UInt8)}
    (h : raiseReady packageSize callback client = .ok (client', packages)) :
    client.SameFlags client' := by
  unfold raiseReady at h
  split at h
  · split at h
    · split at h
      · cases h
      · split at h <;> cases h
        exact ⟨rfl, rfl⟩
    · cases h
      exact ⟨rfl, rfl⟩
  · cases h
    exact .refl client

theorem moveClient_flags {packageSize : ℤ} {callback : Bool} {packages : List (List UInt8)}
    (h : moveClient packageSize callback client = .ok (client', packages)) :
    client.SameFlags client' := by
  unfold moveClient at h
  split at h
  · -- the move of the raw bytes, then the hand-over
    cases hmove : moveRaw packageSize client with
    | error fault =>
        rw [hmove] at h
        cases h
    | ok moved =>
        rw [hmove] at h
        exact (moveRaw_flags hmove).trans (raiseReady_flags h)
  · cases h
    exact .refl client

theorem rxClient_flags {packageSize : ℤ} {package : List UInt8}
    (h : rxClient packageSize client = .ok (client', package)) : client.SameFlags client' := by
  unfold rxClient at h
  split at h
  · cases h
  · dsimp only at h
    split at h
    · split at h
      · split at h <;> cases h
        exact ⟨rfl, rfl⟩
      · cases h
        exact ⟨rfl, rfl⟩
    · cases h

end

/-! ## Every slot stays free -/

/-- No slot is marked as in use. -/
def AllFree (sock : Socket) : Prop :=
  ∀ i, (sock.clientList i).flag = 0

/-- The slots in the order in which the loops visit them. -/
theorem finRange_maxClients :
    List.finRange maxClients = 0 :: (List.finRange maxClients).tail := by decide

theorem AllFree.freeSlot {sock : Socket} (h : sock.AllFree) : sock.freeSlot = some 0 := by
  rw [Socket.freeSlot, finRange_maxClients, List.find?_cons_of_pos]
  simpa using h 0

/-- What `InitRx` leaves when it returns `1`. -/
theorem initRx_eq {sock : Socket} {packageSize : ℤ} {callback : Bool} {results : InitResults}
    (h : (initRx sock packageSize callback results).2 = 1) :
    (initRx sock packageSize callback results).1 =
      { rxSocketDesc := results.socket, packageSize := packageSize, callback := callback,
        clientList := fun i => { sock.clientList i with flag := 0 } } := by
  unfold initRx at h ⊢
  dsimp only at h ⊢
  split at h
  · cases h
  split at h
  · cases h
  split at h
  · cases h
  rw [if_neg ‹_›, if_neg ‹_›, if_neg ‹_›]

theorem initRx_allFree {sock : Socket} {packageSize : ℤ} {callback : Bool}
    {results : InitResults} (h : (initRx sock packageSize callback results).2 = 1) :
    (initRx sock packageSize callback results).1.AllFree := by
  rw [initRx_eq h]
  exact fun i => rfl

namespace Session

variable {s s' : Session} {event : RxEvent}

theorem allFree_store {i : Fin maxClients} {client : Client} (traffic : Traffic)
    (h : s.sock.AllFree) (hflag : client.flag = (s.sock.clientList i).flag) :
    (s.store i client traffic).sock.AllFree := by
  intro j
  by_cases hsame : j = i
  · subst hsame
    rw [store_clientList_self, hflag]
    exact h j
  · rw [store_clientList_of_ne _ _ _ hsame]
    exact h j

theorem allFree_step (h : s.sock.AllFree) (hstep : s.step event = .ok s') : s'.sock.AllFree := by
  cases step_cases hstep with
  | refused _ | unready => exact h
  | accept _ _ => exact allFree_store ⟨[], []⟩ h (acceptClient_flag ..)
  | recv hresult => exact allFree_store _ h (recvClient_flags hresult).flag
  | move hresult => exact allFree_store _ h (moveClient_flags hresult).flag
  | rx _ hresult => exact allFree_store _ h (rxClient_flags hresult).flag

/-- `accepted` grows by the slot of a connection the step stores, and by nothing else. -/
theorem accepted_step (hstep : s.step event = .ok s') :
    (event.accepts = true ∧ ∃ i, s.sock.freeSlot = some i ∧ s'.accepted = s.accepted ++ [i]) ∨
      (event.accepts = false ∧ s'.accepted = s.accepted) := by
  cases step_cases hstep with
  | accept haccepts hfree => exact .inl ⟨haccepts, _, hfree, rfl⟩
  | refused hrefused => exact .inr ⟨hrefused, rfl⟩
  | recv _ | move _ | unready | rx _ _ => exact .inr ⟨rfl, rfl⟩

/-- All slots are free, and the connections so far were stored in slot `0`. -/
structure OneSlot (s : Session) : Prop where
  all_free : s.sock.AllFree
  accepted_zero : ∀ i ∈ s.accepted, i = 0

theorem OneSlot.step (h : s.OneSlot) (hstep : s.step event = .ok s') : s'.OneSlot := by
  refine ⟨allFree_step h.all_free hstep, fun j hj => ?_⟩
  rcases accepted_step hstep with ⟨-, i, hfree, haccepted⟩ | ⟨-, haccepted⟩
  · rw [haccepted] at hj
    rcases List.mem_append.mp hj with hold | hnew
    · exact h.accepted_zero j hold
    · obtain rfl := List.mem_singleton.mp hnew
      rw [h.all_free.freeSlot] at hfree
      exact (Option.some.inj hfree).symm
  · rw [haccepted] at hj
    exact h.accepted_zero j hj

theorem length_accepted {events : List RxEvent} (hrun : Run (StepOf next) s events s') :
    s'.accepted.length = s.accepted.length + events.countP RxEvent.accepts := by
  induction hrun with
  | nil s => simp
  | cons hnext _ ih =>
      rw [ih]
      have hstep := stepOf_next.mp hnext
      rcases accepted_step hstep with ⟨haccepts, i, -, haccepted⟩ | ⟨hnot, haccepted⟩
      · rw [haccepted, List.length_append, List.length_singleton,
          List.countP_cons_of_pos haccepts]
        omega
      · rw [haccepted, List.countP_cons_of_neg (by simp [hnot])]

/-! ## Connections and slots over a run -/

/-- A connection the step stores goes to a slot that no earlier connection of the run is
stored in, and their entries are unchanged. -/
def StoresFresh (s : Session) (event : RxEvent) (s' : Session) : Prop :=
  event.accepts = true →
    (∀ i, s.sock.freeSlot = some i → i ∉ s.accepted) ∧
      ∀ j ∈ s.accepted, s'.sock.clientList j = s.sock.clientList j

theorem OneSlot.not_storesFresh (h : s.OneSlot) (haccepts : event.accepts = true)
    (hearlier : 0 < s.accepted.length) : ¬ s.StoresFresh event s' := by
  intro hfresh
  obtain ⟨i, hi⟩ := List.exists_mem_of_length_pos hearlier
  obtain rfl := h.accepted_zero i hi
  exact (hfresh haccepts).1 0 h.all_free.freeSlot hi

/-- The second element that meets a condition, and what comes before it. -/
theorem exists_second {α : Type*} {cond : α → Bool} {l : List α} (h : 1 < l.countP cond) :
    ∃ before a after, l = before ++ a :: after ∧ cond a = true ∧ 0 < before.countP cond := by
  induction l with
  | nil => simp at h
  | cons x l ih =>
      by_cases hx : cond x = true
      · rw [List.countP_cons_of_pos hx] at h
        obtain ⟨a, ha, hcond⟩ := List.countP_pos_iff.mp (show 0 < l.countP cond by omega)
        obtain ⟨before, after, rfl⟩ := List.append_of_mem ha
        exact ⟨x :: before, a, after, rfl, hcond, by rw [List.countP_cons_of_pos hx]; omega⟩
      · rw [List.countP_cons_of_neg hx] at h
        obtain ⟨before, a, after, rfl, hcond, hpos⟩ := ih h
        exact ⟨x :: before, a, after, rfl, hcond, by rwa [List.countP_cons_of_neg hx]⟩

/-- **Slots of connections.**  In a run after a successful `InitRx` every connection gets a slot
of its own, and leaves the others alone, exactly if the run accepts at most one. -/
theorem fresh_slots_iff (sock : Socket) (packageSize : ℤ) (callback : Bool)
    (results : InitResults) (hinit : (initRx sock packageSize callback results).2 = 1)
    (events : List RxEvent) (s : Session)
    (hrun : Run (StepOf next) (start (initRx sock packageSize callback results).1) events s) :
    EveryStep (StepOf next) StoresFresh (start (initRx sock packageSize callback results).1)
        events ↔
      events.countP RxEvent.accepts ≤ 1 := by
  have hstart : (start (initRx sock packageSize callback results).1).OneSlot :=
    ⟨initRx_allFree hinit, fun i hi => by cases hi⟩
  constructor
  · intro hfresh
    by_contra hmany
    obtain ⟨before, event, after, rfl, haccepts, hearlier⟩ :=
      exists_second (not_le.mp hmany)
    obtain ⟨m, hbefore, hafter⟩ := hrun.exists_of_append
    obtain ⟨t, hnext, -⟩ := hafter.exists_of_cons
    have hinv : m.OneSlot :=
      hbefore.invariant (fun _ _ _ hinv hnext => hinv.step (stepOf_next.mp hnext)) hstart
    -- the second connection is stored where the first one is
    refine hinv.not_storesFresh haccepts ?_ (hfresh before after event m t rfl hbefore hnext)
    rw [length_accepted hbefore]
    omega
  · rintro hone before after event m t rfl hbefore - haccepts
    -- no connection was stored before this one
    have hnone : m.accepted = [] := by
      rw [List.countP_append, List.countP_cons_of_pos haccepts] at hone
      have hlength : m.accepted.length = 0 + before.countP RxEvent.accepts :=
        length_accepted hbefore
      exact List.length_eq_zero_iff.mp (by omega)
    rw [hnone]
    exact ⟨fun i _ => List.not_mem_nil, fun j hj => by cases hj⟩

/-- A run with one connection. -/
theorem fresh_slots_one :
    EveryStep (StepOf next) StoresFresh sampleStart
        [.accept { desc := 5, inBuf := true, readyBuf := true }, .recv 0 (some [1, 2, 3])] :=
  (fresh_slots_iff (constructed 0 fun _ => .zero) 2 false (.success 4) rfl _ _
    (run_iff_exec.mpr rfl)).mpr (by decide)

/-- The second connection is stored over the first one, whose byte is lost. -/
theorem fresh_slots_two :
    ∃ s, Run (StepOf next) sampleStart
        [.accept { desc := 5, inBuf := true, readyBuf := true }, .recv 0 (some [1]),
          .accept { desc := 6, inBuf := true, readyBuf := true }] s ∧
      ¬ EveryStep (StepOf next) StoresFresh sampleStart
        [.accept { desc := 5, inBuf := true, readyBuf := true }, .recv 0 (some [1]),
          .accept { desc := 6, inBuf := true, readyBuf := true }] := by
  refine ⟨_, run_iff_exec.mpr rfl, fun hfresh => ?_⟩
  have hsecond := hfresh
    [.accept { desc := 5, inBuf := true, readyBuf := true }, .recv 0 (some [1])] []
    (.accept { desc := 6, inBuf := true, readyBuf := true }) _ _ rfl (run_iff_exec.mpr rfl) rfl
  exact (hsecond rfl).1 0 rfl (List.mem_singleton.mpr rfl)

end Session

end XbeeAssignment.Socket
