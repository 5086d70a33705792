import XbeeAssignment.Socket.TxThreads

/-!
# After `DestroyTx`

`DestroyTx` closes the descriptor, clears the flag and resets the descriptor to `-1`,
but the threads that `InitTx` has started run on: a cleared flag is what makes
`TxReconnect` connect again.  A pass that has got past its `connect` sets the flag
even if `DestroyTx` is called in between, and a call of `Tx` that has passed its tests
goes on to `send`.

The half is `Shut` if the flag is clear and neither of the two is under way.  It stays
so in a run exactly if it is so at the last assignment of `DestroyTx` and no `connect`
succeeds after it (`KeepsFinal`).
-/

namespace XbeeAssignment.Socket

open Transition

namespace TxThreads

/-- After `DestroyTx`, and until `InitTx`, the flag is clear and no `Tx` is at its `send`. -/
def Final (s : TxThreads) : Prop :=
  s.destroyed = true → s.memory.half.txIsConnected = false ∧ ∀ desc, s.tx ≠ .send desc

/-- That is so, and will be after the next step, unless it is one of `DestroyTx`. -/
def StaysFinal (s : TxThreads) : Prop :=
  s.Final ∧ ∀ event t, event ≠ .destroy → s.next event = some t → t.Final

/-- The flag is clear, no thread is about to set it and no `Tx` is past its tests. -/
structure Shut (s : TxThreads) : Prop where
  flag : s.memory.half.txIsConnected = false
  not_connected : .setConnected ∉ s.reconnect
  not_loading : s.tx ≠ .load
  not_sending : ∀ desc, s.tx ≠ .send desc

/-- The last assignment of `DestroyTx` finds the half shut, and after it no `connect` succeeds. -/
def KeepsFinal (s : TxThreads) : TxEvent → Prop
  | .destroy => s.destroy = .reset → s.Shut
  | .reconnect thread results =>
      s.destroyed = true → s.reconnect[thread]? = some .connect →
        ¬ (results.connects = true ∧ s.memory.half.txSocketDesc ≠ -1)
  | .callInitTx | .callTx | .tx | .callDestroyTx => True

variable {s s' : TxThreads}

/-! ## The steps -/

/-- `Tx` finds the flag clear. -/
theorem Shut.tx (h : s.Shut) : ({ s with tx := s.tx.step s.memory } : TxThreads).Shut := by
  have hnot : s.tx.step s.memory ≠ .load ∧ ∀ desc, s.tx.step s.memory ≠ .send desc := by
    cases htx : s.tx with
    | load => exact absurd htx h.not_loading
    | idle | send desc => simp [TxPc.step]
    | testConnected => simp [TxPc.step, h.flag]
    | testDesc =>
        rw [TxPc.step]
        split <;> simp
  exact { flag := h.flag, not_connected := h.not_connected, not_loading := hnot.1,
          not_sending := hnot.2 }

theorem Shut.destroy (h : s.Shut) (destroyed : Bool) :
    ({ s with destroy := (s.destroy.step s.memory).1, memory := (s.destroy.step s.memory).2,
              destroyed := destroyed } : TxThreads).Shut := by
  refine { flag := ?_, not_connected := h.not_connected, not_loading := h.not_loading,
           not_sending := h.not_sending }
  cases s.destroy with
  | idle | test | close | reset => exact h.flag
  | clear => rfl

/-- A thread that is not about to set the flag leaves it clear, and is about to set it next exactly
if its `connect` succeeds. -/
theorem reconnect_of_clear {pc pc' : ReconnectPc} {memory memory' : TxMemory}
    {results : TxHalf.ReconnectResults} (hstep : pc.step memory results = some (pc', memory'))
    (hflag : memory.half.txIsConnected = false) (hpc : pc ≠ .setConnected) :
    memory'.half.txIsConnected = false ∧
      (pc' = .setConnected ↔
        pc = .connect ∧ results.connects = true ∧ memory.half.txSocketDesc ≠ -1) := by
  cases pc with
  | setConnected => exact absurd rfl hpc
  | socket =>
      rw [ReconnectPc.step] at hstep
      split_ifs at hstep
      all_goals
        obtain ⟨rfl, rfl⟩ := Prod.mk.inj (Option.some.inj hstep)
        exact ⟨hflag, by simp⟩
  | connect =>
      rw [ReconnectPc.step] at hstep
      split_ifs at hstep with hconnects hopened
      all_goals
        obtain ⟨rfl, rfl⟩ := Prod.mk.inj (Option.some.inj hstep)
        exact ⟨hflag, by simp [hconnects]⟩
  | clearFailed | clearLost =>
      obtain ⟨rfl, rfl⟩ := Prod.mk.inj (Option.some.inj hstep)
      exact ⟨rfl, by simp⟩
  | closeFailed | closeLost =>
      obtain ⟨rfl, rfl⟩ := Prod.mk.inj (Option.some.inj hstep)
      exact ⟨hflag, by simp⟩
  | top | peek =>
      obtain ⟨rfl, rfl⟩ := Prod.mk.inj (Option.some.inj hstep)
      refine ⟨hflag, iff_of_false ?_ (by simp)⟩
      split <;> simp

theorem Shut.pc_ne (h : s.Shut) {thread : ℕ} {pc : ReconnectPc}
    (hpc : s.reconnect[thread]? = some pc) : pc ≠ .setConnected := by
  rintro rfl
  exact h.not_connected (List.mem_of_getElem? hpc)

theorem Shut.reconnect (h : s.Shut) {thread : ℕ} {pc pc' : ReconnectPc} {memory : TxMemory}
    {results : TxHalf.ReconnectResults} (hpc : s.reconnect[thread]? = some pc)
    (hstep : pc.step s.memory results = some (pc', memory)) :
    ({ s with reconnect := s.reconnect.set thread pc', memory := memory } : TxThreads).Shut ↔
      (pc = .connect → ¬ (results.connects = true ∧ s.memory.half.txSocketDesc ≠ -1)) := by
  obtain ⟨hflag, hset⟩ := reconnect_of_clear hstep h.flag (h.pc_ne hpc)
  obtain ⟨hthread, -⟩ := List.getElem?_eq_some_iff.mp hpc
  constructor
  · intro hshut hconnect hok
    refine hshut.not_connected ?_
    rw [← hset.mpr ⟨hconnect, hok⟩]
    exact List.mem_set hthread _
  · intro hfails
    refine { flag := hflag, not_connected := ?_, not_loading := h.not_loading,
             not_sending := h.not_sending }
    intro hmem
    rcases List.mem_or_eq_of_mem_set hmem with hmem | hpc'
    · exact h.not_connected hmem
    · obtain ⟨hconnect, hok⟩ := hset.mp hpc'.symm
      exact hfails hconnect hok

/-- Beginning a call changes nothing that matters. -/
theorem Shut.begin (h : s.Shut) {tx : TxPc} (htx : tx = s.tx ∨ tx = .testDesc)
    (destroy : DestroyPc) : ({ s with tx := tx, destroy := destroy } : TxThreads).Shut := by
  rcases htx with rfl | rfl
  · exact { flag := h.flag, not_connected := h.not_connected, not_loading := h.not_loading,
            not_sending := h.not_sending }
  · exact { flag := h.flag, not_connected := h.not_connected, not_loading := by simp,
            not_sending := by simp }

theorem shut_step {event : TxEvent} (hshut : s.destroyed = true → s.Shut)
    (hstep : s.next event = some s') :
    (s'.destroyed = true → s'.Shut) ↔ s.KeepsFinal event := by
  cases next_cases hstep with
  | callInitTx => exact iff_of_true (fun hdestroyed => by cases hdestroyed) trivial
  | callTx _ =>
      exact iff_of_true (fun hdestroyed => (hshut hdestroyed).begin (.inr rfl) _) trivial
  | tx _ => exact iff_of_true (fun hdestroyed => (hshut hdestroyed).tx) trivial
  | callDestroyTx _ =>
      exact iff_of_true (fun hdestroyed => (hshut hdestroyed).begin (.inl rfl) _) trivial
  | destroy _ =>
      constructor
      · intro hshut' hreset
        have h := hshut' (by simp [hreset])
        rw [hreset] at h
        exact { flag := h.flag, not_connected := h.not_connected, not_loading := h.not_loading,
                not_sending := h.not_sending }
      · intro hkeeps hdestroyed
        have hs : s.Shut := by
          by_cases hreset : s.destroy = .reset
          · exact hkeeps hreset
          · exact hshut (by simpa [hreset] using hdestroyed)
        exact hs.destroy _
  | reconnect hpc hpc' =>
      rw [KeepsFinal, hpc]
      constructor
      · intro hshut' hdestroyed hconnect
        exact ((hshut hdestroyed).reconnect hpc hpc').mp (hshut' hdestroyed)
          (Option.some.inj hconnect)
      · intro hkeeps hdestroyed
        refine ((hshut hdestroyed).reconnect hpc hpc').mpr ?_
        rintro rfl
        exact hkeeps hdestroyed rfl

/-! ## Finality -/

theorem final_of_shut (h : s.destroyed = true → s.Shut) : s.Final :=
  fun hdestroyed => ⟨(h hdestroyed).flag, (h hdestroyed).not_sending⟩

/-- What is under way shows one step later. -/
theorem staysFinal_iff : s.StaysFinal ↔ (s.destroyed = true → s.Shut) := by
  constructor
  · intro hfinal hdestroyed
    obtain ⟨hflag, hsend⟩ := hfinal.1 hdestroyed
    refine { flag := hflag, not_connected := ?_, not_loading := ?_, not_sending := hsend }
    · intro hset
      obtain ⟨thread, hthread⟩ := List.getElem?_of_mem hset
      have hnext : s.next (.reconnect thread ⟨-1, false, false⟩) = some
          (s.setThread thread .top
            { s.memory with half := { s.memory.half with txIsConnected := true } }) := by
        simp [next, hthread, ReconnectPc.step, setThread]
      have hset := (hfinal.2 _ _ (by simp) hnext hdestroyed).1
      cases hset
    · intro hload
      have hnext : s.next .tx = some { s with tx := .send s.memory.half.txSocketDesc } := by
        simp [next, hload, TxPc.step]
      exact (hfinal.2 _ _ (by simp) hnext hdestroyed).2 _ rfl
  · intro hshut
    refine ⟨final_of_shut hshut, ?_⟩
    intro event t hevent hnext
    cases next_cases hnext with
    | destroy _ => exact absurd rfl hevent
    | callInitTx | callTx _ | tx _ | callDestroyTx _ =>
        exact final_of_shut ((shut_step hshut hnext).mpr trivial)
    | reconnect hpc hpc' =>
        intro hdestroyed
        have h := hshut hdestroyed
        exact ⟨(reconnect_of_clear hpc' h.flag (h.pc_ne hpc)).1, h.not_sending⟩

/-- **`DestroyTx` is final.**  In a run with any number of threads the sending half stays shut after
every `DestroyTx`, whatever `Tx` or a thread does next, exactly if every step of the run meets
`KeepsFinal`. -/
theorem final_iff (events : List TxEvent) :
    EveryStep (StepOf next) (fun _ _ t => t.StaysFinal) start events ↔
      EveryStep (StepOf next) (fun s event _ => s.KeepsFinal event) start events := by
  apply everyStep_iff_of_invariant fun s => s.destroyed = true → s.Shut
  · intro s event t hshut hkeeps hstep
    exact (shut_step hshut hstep).mpr hkeeps
  · intro s event t hshut hstep
    rw [staysFinal_iff]
    exact shut_step hshut hstep
  · intro hdestroyed
    cases hdestroyed

/-- `DestroyTx` after a pass has connected: the next pass connects again. -/
theorem not_final_reconnected :
    ∃ s, Run (StepOf next) start
        (connects 3 ++ .callDestroyTx :: List.replicate 4 .destroy ++
          List.replicate 4 (.reconnect 0 ⟨4, true, false⟩)) s ∧
      ¬ s.Final := by
  refine ⟨_, run_iff_exec.mpr rfl, fun hfinal => ?_⟩
  exact absurd (hfinal rfl).1 (by decide)

end TxThreads

end XbeeAssignment.Socket
