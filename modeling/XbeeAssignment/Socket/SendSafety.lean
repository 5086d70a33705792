import XbeeAssignment.Socket.TxThreads

/-!
# What `Tx` sends on

`Tx` tests the descriptor and the flag and then sends on the descriptor.  The flag is
meant to say that the descriptor is connected, but `DestroyTx` and a thread that
finds its connection lost close the descriptor first and clear the flag after that,
and nothing keeps a call of `Tx` out of the time between, or a `close` out of the
time between the tests and `send`.

`Separated` keeps them apart.  With one thread, the descriptor is then connected
whenever the flag is set and no closing is under way (`Sound.current`), and a call of
`Tx` that has passed its tests still finds what it tested (`Sound.loading`).
-/

namespace XbeeAssignment.Socket

open Transition

/-- The call of `Tx` has passed a test. -/
def TxPc.Tested : TxPc → Prop
  | .testConnected | .load | .send _ => True
  | .idle | .testDesc => False

/-- `DestroyTx` is behind its test and its `close`, if there was a descriptor to close, and has not
reset the descriptor yet. -/
def DestroyPc.Closing : DestroyPc → Prop
  | .clear | .reset => True
  | .idle | .test | .close => False

/-- The pass has found the flag clear, and not set it yet. -/
def ReconnectPc.Connecting : ReconnectPc → Prop
  | .socket | .connect | .setConnected | .closeFailed | .clearFailed => True
  | .top | .peek | .closeLost | .clearLost => False

/-- The descriptor has got as far as the pass has. -/
def ReconnectPc.Current (memory : TxMemory) : ReconnectPc → Prop
  | .connect => memory.descs memory.half.txSocketDesc = .opened
  | .setConnected => memory.descs memory.half.txSocketDesc = .connected
  | .top | .peek | .closeLost =>
      memory.half.txIsConnected = true → memory.descs memory.half.txSocketDesc = .connected
  | .socket | .closeFailed | .clearFailed | .clearLost => True

instance (pc : TxPc) : Decidable pc.Tested := by
  cases pc <;> unfold TxPc.Tested <;> infer_instance

instance (pc : DestroyPc) : Decidable pc.Closing := by
  cases pc <;> unfold DestroyPc.Closing <;> infer_instance

namespace TxThreads

/-- `DestroyTx` is in its closing, or the thread has closed a lost connection and not cleared the
flag yet. -/
def Closing (s : TxThreads) : Prop :=
  s.destroy.Closing ∨ .clearLost ∈ s.reconnect

instance (s : TxThreads) : Decidable s.Closing :=
  inferInstanceAs (Decidable (_ ∨ _))

/-- There is one thread, no call of `Tx` goes on during a closing, and no closing begins or goes
on while a call of `Tx` is between its first test and its end. -/
def Separated (s : TxThreads) : TxEvent → Prop
  | .callInitTx => s.reconnect = []
  | .tx => ¬ s.Closing
  | .destroy => ¬ s.tx.Tested
  | .reconnect thread _ => s.reconnect[thread]? = some .closeLost → ¬ s.tx.Tested
  | .callTx | .callDestroyTx => True

instance (s : TxThreads) (event : TxEvent) : Decidable (s.Separated event) := by
  cases event <;> unfold Separated <;> infer_instance

/-! ## The invariant -/

structure Sound (s : TxThreads) : Prop where
  one_thread : s.reconnect.length ≤ 1
  no_thread : s.reconnect = [] → s.memory.half.txIsConnected = false
  connecting : ∀ pc ∈ s.reconnect, pc.Connecting → s.memory.half.txIsConnected = false
  current : ∀ pc ∈ s.reconnect,
    s.destroy.Closing ∨ s.memory.half.txSocketDesc = -1 ∨ pc.Current s.memory
  /-- What a call of `Tx` that has passed a test relies on. -/
  tested : s.tx.Tested → ¬ s.Closing ∧ (s.memory.half.txSocketDesc = -1 →
    s.memory.half.txIsConnected = false ∧ .setConnected ∉ s.reconnect)
  loading : s.tx = .load → s.memory.half.txIsConnected = true ∧
    s.memory.half.txSocketDesc ≠ -1 ∧
      s.memory.descs s.memory.half.txSocketDesc = .connected
  sending : ∀ desc, s.tx = .send desc → s.memory.half.txIsConnected = true ∧
    s.memory.half.txSocketDesc ≠ -1 ∧ s.memory.descs desc = .connected

variable {s s' : TxThreads}

theorem start_sound : start.Sound :=
  { one_thread := Nat.zero_le 1
    no_thread := fun _ => rfl
    connecting := fun pc hmem => by cases hmem
    current := fun pc hmem => by cases hmem
    tested := fun htested => htested.elim
    loading := fun hload => by cases hload
    sending := fun desc hsend => by cases hsend }

theorem Sound.up (h : s.Sound) (hapart : ¬ s.Closing)
    (hdesc : s.memory.half.txSocketDesc ≠ -1) (hflag : s.memory.half.txIsConnected = true) :
    s.memory.descs s.memory.half.txSocketDesc = .connected := by
  rcases hthread : s.reconnect with _ | ⟨pc, rest⟩
  · rw [h.no_thread hthread] at hflag
    cases hflag
  · have hmem : pc ∈ s.reconnect := by
      rw [hthread]
      exact List.mem_cons_self
    have hdown : ¬ pc.Connecting := by
      intro hconnecting
      rw [h.connecting pc hmem hconnecting] at hflag
      cases hflag
    have hcurrent := ((h.current pc hmem).resolve_left fun hdestroy => hapart (.inl hdestroy))
      |>.resolve_left hdesc
    cases pc with
    | top | peek | closeLost => exact hcurrent hflag
    | clearLost => exact absurd (.inr hmem) hapart
    | socket | connect | setConnected | closeFailed | clearFailed => exact absurd trivial hdown

/-! ## The steps -/

theorem Sound.callInitTx (h : s.Sound) (hnone : s.reconnect = []) :
    ({ s with reconnect := s.reconnect ++ [.top], destroyed := false } : TxThreads).Sound := by
  have hflag := h.no_thread hnone
  rw [hnone]
  refine { one_thread := Nat.le_refl 1, no_thread := fun _ => hflag,
           connecting := fun pc hmem hconnecting => hflag, current := ?_, tested := ?_,
           loading := h.loading, sending := h.sending }
  · intro pc hmem
    obtain rfl := List.mem_singleton.mp hmem
    refine .inr (.inr ?_)
    intro hset
    rw [hflag] at hset
    cases hset
  · intro htested
    refine ⟨?_, fun hnodesc => ⟨hflag, by simp⟩⟩
    rintro (hdestroy | hlost)
    · exact (h.tested htested).1 (.inl hdestroy)
    · simp at hlost

/-- A call of `Tx` takes what it relies on from the invariant. -/
theorem Sound.tx (h : s.Sound) (hapart : ¬ s.Closing) :
    ({ s with tx := s.tx.step s.memory } : TxThreads).Sound := by
  have hkeep : ∀ tx : TxPc,
      (tx.Tested → s.memory.half.txSocketDesc = -1 →
        s.memory.half.txIsConnected = false ∧ .setConnected ∉ s.reconnect) →
      (tx = .load → s.memory.half.txIsConnected = true ∧ s.memory.half.txSocketDesc ≠ -1 ∧
        s.memory.descs s.memory.half.txSocketDesc = .connected) →
      (∀ desc, tx = .send desc → s.memory.half.txIsConnected = true ∧
        s.memory.half.txSocketDesc ≠ -1 ∧ s.memory.descs desc = .connected) →
      ({ s with tx := tx } : TxThreads).Sound := by
    intro tx htested hloading hsending
    exact { one_thread := h.one_thread, no_thread := h.no_thread, connecting := h.connecting,
            current := h.current, tested := fun ht => ⟨hapart, htested ht⟩, loading := hloading,
            sending := hsending }
  cases htx : s.tx with
  | idle | send desc => exact hkeep .idle (fun ht => ht.elim) (by simp) (by simp)
  | testDesc =>
      by_cases hdesc : s.memory.half.txSocketDesc = -1
      · simp only [TxPc.step, ne_eq, hdesc, not_true, if_false]
        exact hkeep .idle (fun ht => ht.elim) (by simp) (by simp)
      · simp only [TxPc.step, ne_eq, hdesc, not_false_eq_true, if_true]
        exact hkeep .testConnected (fun _ hnodesc => absurd hnodesc hdesc) (by simp) (by simp)
  | testConnected =>
      have htested := (h.tested (by rw [htx]; trivial)).2
      cases hflag : s.memory.half.txIsConnected with
      | false =>
          simp only [TxPc.step, hflag, Bool.false_eq_true, if_false]
          exact hkeep .idle (fun ht => ht.elim) (by simp) (by simp)
      | true =>
          have hdesc : s.memory.half.txSocketDesc ≠ -1 := by
            intro hnodesc
            rw [(htested hnodesc).1] at hflag
            cases hflag
          simp only [TxPc.step, hflag, if_true]
          exact hkeep .load (fun _ => htested) (fun _ => ⟨hflag, hdesc, h.up hapart hdesc hflag⟩)
            (by simp)
  | load =>
      obtain ⟨hflag, hdesc, hconnected⟩ := h.loading htx
      refine hkeep (.send _) (fun _ hnodesc => absurd hnodesc hdesc) (by simp) ?_
      rintro desc ⟨⟩
      exact ⟨hflag, hdesc, hconnected⟩

/-- `DestroyTx` works while no call of `Tx` has passed a test. -/
theorem Sound.ofDestroy (h : s.Sound) (htx : ¬ s.tx.Tested) {destroy : DestroyPc}
    {memory : TxMemory} {destroyed : Bool}
    (hflag : s.memory.half.txIsConnected = false → memory.half.txIsConnected = false)
    (hcurrent : ∀ pc ∈ s.reconnect,
      destroy.Closing ∨ memory.half.txSocketDesc = -1 ∨ pc.Current memory) :
    ({ s with destroy := destroy, memory := memory, destroyed := destroyed } : TxThreads).Sound :=
  { one_thread := h.one_thread
    no_thread := fun hnone => hflag (h.no_thread hnone)
    connecting := fun pc hmem hconnecting => hflag (h.connecting pc hmem hconnecting)
    current := hcurrent
    tested := fun htested => absurd htested htx
    loading := fun hload => absurd (by rw [hload]; trivial) htx
    sending := fun desc hsend => absurd (by rw [hsend]; trivial) htx }

theorem Sound.destroy (h : s.Sound) (hbusy : s.destroy ≠ .idle) (htx : ¬ s.tx.Tested)
    (destroyed : Bool) :
    ({ s with destroy := (s.destroy.step s.memory).1, memory := (s.destroy.step s.memory).2,
              destroyed := destroyed } : TxThreads).Sound := by
  cases hpc : s.destroy with
  | idle => exact absurd hpc hbusy
  | test =>
      have hcurrent : ∀ pc ∈ s.reconnect,
          s.memory.half.txSocketDesc = -1 ∨ pc.Current s.memory := by
        intro pc hmem
        refine (h.current pc hmem).resolve_left ?_
        rw [hpc]
        exact id
      exact h.ofDestroy htx id fun pc hmem => .inr (hcurrent pc hmem)
  | close => exact h.ofDestroy htx id fun pc hmem => .inl trivial
  | clear => exact h.ofDestroy htx (fun _ => rfl) fun pc hmem => .inl trivial
  | reset => exact h.ofDestroy htx id fun pc hmem => .inr (.inl rfl)

/-- What a thread leaves for the others. -/
theorem Sound.ofThread (h : s.Sound) {pc : ReconnectPc} {memory : TxMemory}
    (hconnecting : pc.Connecting → memory.half.txIsConnected = false)
    (hcurrent : s.destroy.Closing ∨ memory.half.txSocketDesc = -1 ∨ pc.Current memory)
    (htested : s.tx.Tested → pc ≠ .clearLost ∧ (memory.half.txSocketDesc = -1 →
      memory.half.txIsConnected = false ∧ pc ≠ .setConnected))
    (hloading : memory = s.memory ∨ s.tx ≠ .load ∧ ∀ desc, s.tx ≠ .send desc) :
    ({ s with reconnect := [pc], memory := memory } : TxThreads).Sound := by
  refine { one_thread := Nat.le_refl 1, no_thread := by simp, connecting := by simpa,
           current := by simpa, tested := ?_, loading := ?_, sending := ?_ }
  · intro ht
    obtain ⟨hnotlost, hnotset⟩ := htested ht
    constructor
    · rintro (hdestroy | hlost)
      · exact (h.tested ht).1 (.inl hdestroy)
      · exact hnotlost (List.mem_singleton.mp hlost).symm
    · intro hnodesc
      obtain ⟨hflag, hpc⟩ := hnotset hnodesc
      exact ⟨hflag, fun hset => hpc (List.mem_singleton.mp hset).symm⟩
  · intro hload
    rcases hloading with rfl | ⟨hnot, -⟩
    · exact h.loading hload
    · exact absurd hload hnot
  · intro desc hsend
    rcases hloading with rfl | ⟨-, hnot⟩
    · exact h.sending desc hsend
    · exact absurd hsend (hnot desc)

/-- While the flag is clear no call of `Tx` is past its second test. -/
theorem Sound.before_load (h : s.Sound) (hflag : s.memory.half.txIsConnected = false) :
    s.tx ≠ .load ∧ ∀ desc, s.tx ≠ .send desc := by
  refine ⟨fun hload => ?_, fun desc hsend => ?_⟩
  · exact absurd hflag (by simp [(h.loading hload).1])
  · exact absurd hflag (by simp [(h.sending desc hsend).1])

/-- A thread that finds the flag clear and leaves it so. -/
theorem Sound.ofClear (h : s.Sound) {pc : ReconnectPc} {memory : TxMemory}
    (hbefore : s.memory.half.txIsConnected = false)
    (hflag : memory.half.txIsConnected = false)
    (hcurrent : s.destroy.Closing ∨ memory.half.txSocketDesc = -1 ∨ pc.Current memory)
    (hpc : pc ≠ .clearLost) (hset : pc = .setConnected → memory.half.txSocketDesc ≠ -1) :
    ({ s with reconnect := [pc], memory := memory } : TxThreads).Sound := by
  apply h.ofThread (fun _ => hflag) hcurrent _ (.inr (h.before_load hbefore))
  intro _
  exact ⟨hpc, fun hnodesc => ⟨hflag, fun hpc' => hset hpc' hnodesc⟩⟩

/-- A thread that has changed nothing, and is not about to set or clear the flag. -/
theorem Sound.ofLook (h : s.Sound) {pc : ReconnectPc} (hpc : ¬ pc.Connecting)
    (hlost : pc ≠ .clearLost)
    (hcurrent : s.destroy.Closing ∨ s.memory.half.txSocketDesc = -1 ∨ pc.Current s.memory) :
    ({ s with reconnect := [pc] } : TxThreads).Sound := by
  apply h.ofThread (fun hconnecting => absurd hconnecting hpc) hcurrent _ (.inl rfl)
  intro ht
  refine ⟨hlost, fun hnodesc => ⟨((h.tested ht).2 hnodesc).1, ?_⟩⟩
  rintro rfl
  exact hpc trivial

theorem not_tested_before_load {tx : TxPc} (htx : ¬ tx.Tested) :
    tx ≠ .load ∧ ∀ desc, tx ≠ .send desc := by
  constructor
  · rintro rfl
    exact htx trivial
  · rintro desc rfl
    exact htx trivial

/-- A thread that works while no call of `Tx` has passed a test. -/
theorem Sound.ofUntested (h : s.Sound) {pc : ReconnectPc} {memory : TxMemory}
    (htx : ¬ s.tx.Tested) (hpc : ¬ pc.Connecting)
    (hcurrent : s.destroy.Closing ∨ memory.half.txSocketDesc = -1 ∨ pc.Current memory) :
    ({ s with reconnect := [pc], memory := memory } : TxThreads).Sound :=
  h.ofThread (fun hconnecting => absurd hconnecting hpc) hcurrent (fun ht => absurd ht htx)
    (.inr (not_tested_before_load htx))

theorem Sound.one_thread_only (h : s.Sound) {thread : ℕ} {pc : ReconnectPc}
    (hpc : s.reconnect[thread]? = some pc) :
    s.reconnect = [pc] ∧ ∀ pc', s.reconnect.set thread pc' = [pc'] := by
  obtain ⟨hthread, rfl⟩ := List.getElem?_eq_some_iff.mp hpc
  have hlength : s.reconnect.length = 1 := by
    have := h.one_thread
    omega
  obtain rfl : thread = 0 := by omega
  obtain ⟨only, honly⟩ := List.length_eq_one_iff.mp hlength
  simp [honly]

theorem Sound.reconnect (h : s.Sound) {thread : ℕ} {results : TxHalf.ReconnectResults}
    {pc pc' : ReconnectPc} {memory : TxMemory} (hpc : s.reconnect[thread]? = some pc)
    (happart : pc = .closeLost → ¬ s.tx.Tested)
    (hstep : pc.step s.memory results = some (pc', memory)) :
    ({ s with reconnect := s.reconnect.set thread pc', memory := memory } : TxThreads).Sound := by
  obtain ⟨hlist, hset⟩ := h.one_thread_only hpc
  have hmem : pc ∈ s.reconnect := by simp [hlist]
  have hcurrent := h.current pc hmem
  rw [hset]
  cases pc with
  | top =>
      obtain ⟨rfl, rfl⟩ := Prod.mk.inj (Option.some.inj hstep)
      cases hflag : s.memory.half.txIsConnected with
      | false =>
          exact h.ofClear hflag hflag (.inr (.inr trivial)) (by simp) (by simp)
      | true =>
          exact h.ofLook id (by simp) hcurrent
  | socket =>
      have hflag := h.connecting _ hmem trivial
      simp only [ReconnectPc.step] at hstep
      split_ifs at hstep with hfail hfresh
      · obtain ⟨rfl, rfl⟩ := Prod.mk.inj (Option.some.inj hstep)
        exact h.ofClear hflag hflag (.inr (.inl rfl)) (by simp) (by simp)
      · obtain ⟨rfl, rfl⟩ := Prod.mk.inj (Option.some.inj hstep)
        exact h.ofClear hflag hflag (.inr (.inr (Function.update_self ..))) (by simp) (by simp)
  | connect =>
      have hflag := h.connecting _ hmem trivial
      simp only [ReconnectPc.step] at hstep
      split_ifs at hstep with hconnects hopened
      · -- the descriptor that `socket` returned is connected now
        obtain ⟨rfl, rfl⟩ := Prod.mk.inj (Option.some.inj hstep)
        exact h.ofClear hflag hflag (.inr (.inr (Function.update_self ..))) (by simp)
          fun _ => hconnects.2
      · -- another one has come into its place
        obtain ⟨rfl, rfl⟩ := Prod.mk.inj (Option.some.inj hstep)
        refine h.ofClear hflag hflag (.inl ?_) (by simp) fun _ => hconnects.2
        exact hcurrent.resolve_right fun hnot => hnot.elim hconnects.2 hopened
      · obtain ⟨rfl, rfl⟩ := Prod.mk.inj (Option.some.inj hstep)
        exact h.ofClear hflag hflag (.inr (.inr trivial)) (by simp) (by simp)
  | setConnected =>
      have hflag := h.connecting _ hmem trivial
      obtain ⟨rfl, rfl⟩ := Prod.mk.inj (Option.some.inj hstep)
      refine h.ofThread (fun hconnecting => hconnecting.elim) ?_ ?_ (.inr (h.before_load hflag))
      · exact hcurrent.imp_right (Or.imp_right fun hmade _ => hmade)
      · intro ht
        exact ⟨by simp, fun hnodesc => absurd hmem ((h.tested ht).2 hnodesc).2⟩
  | closeFailed =>
      have hflag := h.connecting _ hmem trivial
      obtain ⟨rfl, rfl⟩ := Prod.mk.inj (Option.some.inj hstep)
      exact h.ofClear hflag hflag (.inr (.inr trivial)) (by simp) (by simp)
  | clearFailed =>
      have hflag := h.connecting _ hmem trivial
      obtain ⟨rfl, rfl⟩ := Prod.mk.inj (Option.some.inj hstep)
      exact h.ofClear hflag rfl (.inr (.inr fun hset => by cases hset)) (by simp) (by simp)
  | peek =>
      obtain ⟨rfl, rfl⟩ := Prod.mk.inj (Option.some.inj hstep)
      split_ifs
      · exact h.ofLook id (by simp) hcurrent
      · exact h.ofLook id (by simp) hcurrent
  | closeLost =>
      have htx := happart rfl
      obtain ⟨rfl, rfl⟩ := Prod.mk.inj (Option.some.inj hstep)
      exact h.ofUntested htx id (.inr (.inr trivial))
  | clearLost =>
      have htx : ¬ s.tx.Tested := fun ht => (h.tested ht).1 (.inr hmem)
      obtain ⟨rfl, rfl⟩ := Prod.mk.inj (Option.some.inj hstep)
      exact h.ofUntested htx id (.inr (.inr fun hset => by cases hset))

theorem Sound.callTx (h : s.Sound) : ({ s with tx := .testDesc } : TxThreads).Sound :=
  { one_thread := h.one_thread, no_thread := h.no_thread, connecting := h.connecting,
    current := h.current, tested := fun ht => ht.elim, loading := by simp, sending := by simp }

theorem Sound.callDestroyTx (h : s.Sound) (hidle : s.destroy = .idle) :
    ({ s with destroy := .test } : TxThreads).Sound := by
  refine { one_thread := h.one_thread, no_thread := h.no_thread, connecting := h.connecting,
           current := fun pc hmem => ?_, tested := fun ht => ?_, loading := h.loading,
           sending := h.sending }
  · refine .inr ((h.current pc hmem).resolve_left ?_)
    rw [hidle]
    exact id
  · refine ⟨?_, (h.tested ht).2⟩
    rintro (hdestroy | hlost)
    · exact hdestroy
    · exact (h.tested ht).1 (.inr hlost)

theorem Sound.step (h : s.Sound) {event : TxEvent} (happart : s.Separated event)
    (hstep : s.next event = some s') : s'.Sound := by
  cases next_cases hstep with
  | callInitTx => exact h.callInitTx happart
  | callTx _ => exact h.callTx
  | tx _ => exact h.tx happart
  | callDestroyTx hidle => exact h.callDestroyTx hidle
  | destroy hbusy => exact h.destroy hbusy happart _
  | reconnect hpc hpc' =>
      exact h.reconnect hpc (fun hclose => happart (by rw [hpc, hclose])) hpc'

/-! ## What reaches `send` -/

/-- At its `send` the call of `Tx` has a descriptor that the object opened and connected and has
not closed since. -/
def SendsConnected (s : TxThreads) : Prop :=
  ∀ desc, s.tx = .send desc → s.memory.descs desc = .connected

/-- **Safety of `send`.**  In every run that keeps `Tx` and the closing of a descriptor apart, `Tx`
sends on a connected descriptor only. -/
theorem sendsConnected_of_separated (events : List TxEvent) (s : TxThreads)
    (hrun : Run (Guarded Separated (StepOf next)) start events s) : s.SendsConnected := by
  have h : s.Sound := by
    apply hrun.invariant _ start_sound
    intro s event t h hstep
    exact h.step hstep.1 hstep.2
  intro desc hsend
  exact (h.sending desc hsend).2.2

theorem sendsConnected_of_separated_first :
    ∃ s, Run (Guarded Separated (StepOf next)) start (connects 3 ++ sends) s ∧ s.tx = .send 3 ∧
      s.SendsConnected := by
  have hrun : Run (Guarded Separated (StepOf next)) start (connects 3 ++ sends) _ :=
    run_guarded_iff_exec.mpr rfl
  exact ⟨_, hrun, rfl, sendsConnected_of_separated _ _ hrun⟩

/-- The peer closes the connection, and `Tx` sends between the thread's `close` and its clearing
of the flag. -/
theorem not_sendsConnected_lost :
    ∃ s, Run (StepOf next) start (connects 3 ++
        List.replicate 3 (.reconnect 0 ⟨3, true, true⟩) ++ sends) s ∧
      ¬ s.SendsConnected := by
  refine ⟨_, run_iff_exec.mpr rfl, fun hconnected => ?_⟩
  exact absurd (hconnected 3 rfl) (by decide)

end TxThreads

end XbeeAssignment.Socket
