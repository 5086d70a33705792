import XbeeAssignment.Socket.Transmit
import XbeeAssignment.Timer.Pause

/-!
# `Socket::InitTx` waits for the connection

`InitTx` starts the thread that connects, and then waits in a loop of its own, with a
`Timer` of two seconds: a turn polls the timer and then looks at `tx_is_connected`.  In
between the main loop of the timers counts ticks and the thread makes passes, however
many.

The loop ends in the first turn that finds two seconds of ticks gone or the connection
open (`initTx_returns`).  It polls all the time, so the period of the counter plays no
part as long as a turn does not take 24 days.
-/

namespace XbeeAssignment.Socket

open Timer

variable {long : LongWidth}

/-! ## The function -/

/-- What comes before a turn of the loop: ticks before its poll, and passes of the thread before its
look at the flag. -/
structure Wait where
  ticks : ℕ
  passes : List TxHalf.ReconnectResults

/-- The sending half after passes of the thread. -/
def TxHalf.reconnect (half : TxHalf) (passes : List TxHalf.ReconnectResults) : TxHalf :=
  passes.foldl (fun half results => (half.reconnectPass results).1) half

/-- How the loop ends: when, with what sending half, and whether by the timer. -/
structure Waited where
  ticks : ℕ
  half : TxHalf
  expired : Bool

/-- The loop of `InitTx`; `none` if it has not ended after these waits. -/
def waitLoop (statics : Timer.Statics) (timer : Vtmr long) (half : TxHalf) :
    List Wait → Option Waited
  | [] => none
  | wait :: waits =>
      let statics := statics.advance wait.ticks
      let half := half.reconnect wait.passes
      if (timeout statics timer).1 ≠ 0 then
        some { ticks := wait.ticks, half := half, expired := true }
      else if half.txIsConnected then
        some { ticks := wait.ticks, half := half, expired := false }
      else
        (waitLoop statics (timeout statics timer).2 half waits).map fun waited =>
          { waited with ticks := wait.ticks + waited.ticks }

/-- `InitTx` from the start of the thread on; `LocalTimer` is constructed in some memory. -/
def initTx (conv : IntConversion) (statics : Timer.Statics) (memory : Vtmr long) (half : TxHalf)
    (waits : List Wait) : Option Waited :=
  let initialized := initializeTimer statics memory
  waitLoop initialized.1 (set conv.rounded initialized.1 2 initialized.2) half waits

/-! ## The loop -/

/-- The static members between two calls: not set up yet, or running. -/
def Settled (statics : Timer.Statics) : Prop :=
  statics.initialized = false ∨ ∃ s : UInt32, s.toNat < 2 ^ 31 ∧ statics = .running s

theorem initializeTimer_settled {statics : Timer.Statics} (h : Settled statics)
    (memory : Vtmr long) :
    ∃ s : UInt32, s.toNat < 2 ^ 31 ∧ (initializeTimer statics memory).1 = .running s := by
  unfold initializeTimer
  rcases h with hnew | ⟨s, hs, rfl⟩
  · rw [hnew]
    exact ⟨0, by decide, rfl⟩
  · exact ⟨s, hs, rfl⟩

/-- Two seconds are 2000 ticks. -/
theorem timeout_two (conv : IntConversion) (memory : Vtmr long) {s : UInt32}
    (hs : s.toNat < 2 ^ 31) (k : ℕ) :
    (timeout ((Timer.Statics.running s).advance k)
        (set conv.rounded (.running s) 2 memory)).1 = 0 ↔ k % 2 ^ 31 < 2000 := by
  have htwo : doubleTics 2 = 2000 := by decide +kernel
  have htics : (tics conv.rounded (.running s) 2).toInt = doubleTics 2 :=
    toInt_tics_rounded conv s (by omega) (by omega)
  rw [timeout_advance_set _ memory hs (by norm_num), htics, htwo]
  by_cases hlt : k % 2 ^ 31 < 2000
  · rw [if_pos (by omega)]
    exact iff_of_true rfl hlt
  · rw [if_neg (by omega)]
    exact iff_of_false one_ne_zero hlt

theorem advance_advance (statics : Timer.Statics) (j k : ℕ) :
    (statics.advance j).advance k = statics.advance (j + k) := by
  unfold Timer.Statics.advance
  rw [← Function.iterate_add_apply, Nat.add_comm]

/-- A poll that does not report expiry leaves the timer as it is. -/
theorem timeout_snd_of_zero {statics : Timer.Statics} {timer : Vtmr long}
    (hzero : (timeout statics timer).1 = 0) : (timeout statics timer).2 = timer := by
  rcases timeout_cases statics timer with ⟨heq, -⟩ | heq
  · rw [heq]
  · rw [heq] at hzero
    cases hzero

/-- The ticks before the turns. -/
def ticksOf (waits : List Wait) : ℕ := (waits.map Wait.ticks).sum

/-- The passes before the turns, in order. -/
def passesOf (waits : List Wait) : List TxHalf.ReconnectResults := waits.flatMap Wait.passes

theorem reconnect_append (half : TxHalf) (passes passes' : List TxHalf.ReconnectResults) :
    half.reconnect (passes ++ passes') = (half.reconnect passes).reconnect passes' :=
  List.foldl_append

/-- No turn finds two seconds gone or the connection open. -/
def KeepsWaiting (elapsed : ℕ) (half : TxHalf) (waits : List Wait) : Prop :=
  ∀ before turn after, waits = before ++ turn :: after →
    elapsed + ticksOf before + turn.ticks < 2000 ∧
      (half.reconnect (passesOf before ++ turn.passes)).txIsConnected = false

/-- The turn after `before` is the first that ends the loop. -/
structure EndsIn (elapsed : ℕ) (half : TxHalf) (before : List Wait) (last : Wait)
    (waited : Waited) : Prop where
  waiting : KeepsWaiting elapsed half before
  ticks : waited.ticks = ticksOf before + last.ticks
  half_eq : waited.half = half.reconnect (passesOf before ++ last.passes)
  expired : waited.expired = true ↔ 2000 ≤ elapsed + waited.ticks
  connected : waited.expired = false → waited.half.txIsConnected = true

theorem keepsWaiting_nil (elapsed : ℕ) (half : TxHalf) : KeepsWaiting elapsed half [] := by
  intro before turn after hwaits
  simp at hwaits

/-- A turn that does not end the loop, and the turns after it. -/
theorem keepsWaiting_cons {elapsed : ℕ} {half : TxHalf} {wait : Wait} {waits : List Wait}
    (hticks : elapsed + wait.ticks < 2000)
    (hopen : (half.reconnect wait.passes).txIsConnected = false)
    (hrest : KeepsWaiting (elapsed + wait.ticks) (half.reconnect wait.passes) waits) :
    KeepsWaiting elapsed half (wait :: waits) := by
  intro before turn after hwaits
  cases before with
  | nil =>
      obtain ⟨rfl, -⟩ := List.cons.inj hwaits
      exact ⟨hticks, hopen⟩
  | cons first before =>
      obtain ⟨rfl, rfl⟩ := List.cons.inj hwaits
      obtain ⟨hticks', hopen'⟩ := hrest before turn after rfl
      have hsum : ticksOf (wait :: before) = wait.ticks + ticksOf before := rfl
      refine ⟨by omega, ?_⟩
      rw [show passesOf (wait :: before) = wait.passes ++ passesOf before from rfl,
        List.append_assoc, reconnect_append]
      exact hopen'

theorem EndsIn.cons {elapsed : ℕ} {half : TxHalf} {wait last : Wait} {before : List Wait}
    {waited : Waited} (hticks : elapsed + wait.ticks < 2000)
    (hopen : (half.reconnect wait.passes).txIsConnected = false)
    (h : EndsIn (elapsed + wait.ticks) (half.reconnect wait.passes) before last waited) :
    EndsIn elapsed half (wait :: before) last
      { waited with ticks := wait.ticks + waited.ticks } := by
  have hsum : ticksOf (wait :: before) = wait.ticks + ticksOf before := rfl
  refine { waiting := keepsWaiting_cons hticks hopen h.waiting, ticks := ?_, half_eq := ?_,
           expired := ?_, connected := h.connected }
  · rw [hsum, h.ticks, Nat.add_assoc]
  · rw [show passesOf (wait :: before) = wait.passes ++ passesOf before from rfl,
      List.append_assoc, reconnect_append]
    exact h.half_eq
  · rw [h.expired, Nat.add_assoc]

/-- The loop ends in the first turn that ends it, or keeps waiting. -/
theorem waitLoop_cases (conv : IntConversion) (memory : Vtmr long) {s : UInt32}
    (hs : s.toNat < 2 ^ 31) {waits : List Wait}
    (hclose : ∀ wait ∈ waits, wait.ticks ≤ 2 ^ 31 - 2000)
    {elapsed : ℕ} (helapsed : elapsed < 2000) (half : TxHalf) :
    (∃ before last after waited, waits = before ++ last :: after ∧
        waitLoop ((Timer.Statics.running s).advance elapsed)
          (set conv.rounded (.running s) 2 memory) half waits = some waited ∧
        EndsIn elapsed half before last waited) ∨
      KeepsWaiting elapsed half waits := by
  induction waits generalizing elapsed half with
  | nil => exact .inr (keepsWaiting_nil elapsed half)
  | cons wait waits ih =>
      have hbound := hclose wait List.mem_cons_self
      have hpoll := timeout_two conv memory hs (elapsed + wait.ticks)
      rw [Nat.mod_eq_of_lt (by omega)] at hpoll
      simp only [waitLoop, advance_advance]
      by_cases hlt : elapsed + wait.ticks < 2000
      · have hzero := hpoll.mpr hlt
        rw [if_neg (not_not.mpr hzero), timeout_snd_of_zero hzero]
        cases hopen : (half.reconnect wait.passes).txIsConnected with
        | true =>
            refine .inl ⟨[], wait, waits, _, rfl, if_pos rfl, ?_⟩
            exact { waiting := keepsWaiting_nil _ _, ticks := (Nat.zero_add _).symm, half_eq := rfl,
                    expired := iff_of_false Bool.false_ne_true (not_le.mpr hlt)
                    connected := fun _ => hopen }
        | false =>
            rcases ih (fun wait hwait => hclose wait (List.mem_cons_of_mem _ hwait)) hlt
              (half.reconnect wait.passes) with
              ⟨before, last, after, waited, rfl, hloop, hends⟩ | hwaiting
            · refine .inl ⟨wait :: before, last, after, _, rfl, ?_, hends.cons hlt hopen⟩
              rw [if_neg Bool.false_ne_true, hloop]
              rfl
            · exact .inr (keepsWaiting_cons hlt hopen hwaiting)
      · have hone : (timeout ((Timer.Statics.running s).advance (elapsed + wait.ticks))
            (set conv.rounded (.running s) 2 memory)).1 ≠ 0 := fun hzero => hlt (hpoll.mp hzero)
        refine .inl ⟨[], wait, waits, _, rfl, if_pos hone, ?_⟩
        exact { waiting := keepsWaiting_nil _ _, ticks := (Nat.zero_add _).symm, half_eq := rfl,
                expired := iff_of_true rfl (not_lt.mp hlt)
                connected := fun hfalse => absurd hfalse.symm Bool.false_ne_true }

/-! ## The main statement -/

/-- All turns together take at least as long as any of them and those before. -/
theorem not_keepsWaiting {half : TxHalf} {waits : List Wait} (hlong : 2000 ≤ ticksOf waits) :
    ¬ KeepsWaiting 0 half waits := by
  intro hwaiting
  rcases List.eq_nil_or_concat' waits with rfl | ⟨before, last, rfl⟩
  · simp [ticksOf] at hlong
  · have hlast := (hwaiting before last [] rfl).1
    have hsum : ticksOf (before ++ [last]) = ticksOf before + last.ticks := by
      simp [ticksOf]
    omega

/-- Enough ticks end the loop. -/
theorem waitLoop_ends (conv : IntConversion) (memory : Vtmr long) {s : UInt32}
    (hs : s.toNat < 2 ^ 31) (half : TxHalf) {waits : List Wait}
    (hclose : ∀ wait ∈ waits, wait.ticks ≤ 2 ^ 31 - 2000) (hlong : 2000 ≤ ticksOf waits) :
    ∃ before last after waited, waits = before ++ last :: after ∧
      waitLoop (.running s) (set conv.rounded (.running s) 2 memory) half waits = some waited ∧
      EndsIn 0 half before last waited := by
  have hstart : 0 < 2000 := by decide
  rcases waitLoop_cases conv memory hs hclose hstart half with hends | hwaiting
  · exact hends
  · exact absurd hwaiting (not_keepsWaiting hlong)

/-- The timer is set while the counter runs, from wherever it is. -/
theorem exists_initTx_eq (conv : IntConversion) {statics : Timer.Statics}
    (hstatics : Settled statics) (memory : Vtmr long) (half : TxHalf) (waits : List Wait) :
    ∃ s : UInt32, s.toNat < 2 ^ 31 ∧ ∃ memory' : Vtmr long,
      initTx conv statics memory half waits =
        waitLoop (.running s) (set conv.rounded (.running s) 2 memory') half waits := by
  obtain ⟨s, hs, hrunning⟩ := initializeTimer_settled hstatics memory
  exact ⟨s, hs, (initializeTimer statics memory).2, by simp only [initTx, hrunning]⟩

/-- **Waiting for the connection.**  `InitTx` returns, in the first turn that finds two seconds gone
since its start or else the connection open, whatever memory its timer is constructed in and
whether or not it is the first timer of the process. -/
theorem initTx_returns (conv : IntConversion) (statics : Timer.Statics) (hstatics : Settled statics)
    (memory : Vtmr long) (half : TxHalf) (waits : List Wait)
    (hclose : ∀ wait ∈ waits, wait.ticks ≤ 2 ^ 31 - 2000) (hlong : 2000 ≤ ticksOf waits) :
    ∃ before last after waited, waits = before ++ last :: after ∧
      initTx conv statics memory half waits = some waited ∧
      EndsIn 0 half before last waited := by
  obtain ⟨s, hs, memory', hinit⟩ := exists_initTx_eq conv hstatics memory half waits
  rw [hinit]
  exact waitLoop_ends conv memory' hs half hclose hlong

/-- The first pass cannot connect, the second one can, half a second after the call. -/
theorem initTx_returns_connected :
    ∃ before last after waited,
      [(⟨100, [⟨3, false, false⟩]⟩ : Wait), ⟨400, [⟨3, true, false⟩]⟩, ⟨1500, []⟩] =
        before ++ last :: after ∧
      initTx (IntConversion.withDefault 0) .zero
        ({ mode := 7, start := 0, timeout := 0 } : Vtmr .bits32) .constructed
        [⟨100, [⟨3, false, false⟩]⟩, ⟨400, [⟨3, true, false⟩]⟩, ⟨1500, []⟩] = some waited ∧
      EndsIn 0 .constructed before last waited :=
  initTx_returns (IntConversion.withDefault 0) .zero (.inl rfl)
    { mode := 7, start := 0, timeout := 0 } .constructed
    [⟨100, [⟨3, false, false⟩]⟩, ⟨400, [⟨3, true, false⟩]⟩, ⟨1500, []⟩] (by decide) (by decide)

/-! ## The first `Tx` -/

/-- `connect` fails on the descriptor `-1`. -/
def TxHalf.ReconnectResults.Possible (results : TxHalf.ReconnectResults) : Prop :=
  results.connects = true → results.socket ≠ -1

/-- The flag is set for a descriptor only. -/
def TxHalf.Open (half : TxHalf) : Prop :=
  half.txIsConnected = true → half.txSocketDesc ≠ -1

theorem TxHalf.Open.reconnectPass {half : TxHalf} (h : half.Open)
    {results : TxHalf.ReconnectResults} (hpossible : results.Possible) :
    (half.reconnectPass results).1.Open := by
  unfold TxHalf.reconnectPass
  split
  · split
    · next hconnects => exact fun _ => hpossible hconnects
    · exact fun hflag => absurd hflag Bool.false_ne_true
  · split
    · exact fun hflag => absurd hflag Bool.false_ne_true
    · exact h

theorem TxHalf.Open.reconnect {half : TxHalf} (h : half.Open)
    {passes : List TxHalf.ReconnectResults} (hpossible : ∀ results ∈ passes, results.Possible) :
    (half.reconnect passes).Open := by
  induction passes generalizing half with
  | nil => exact h
  | cons results passes ih =>
      exact ih (h.reconnectPass (hpossible results List.mem_cons_self))
        fun other hother => hpossible other (List.mem_cons_of_mem _ hother)

/-- **The first `Tx`.**  A `Tx` right after `InitTx` passes its package to `send`, unless the
connection is not open then; and in that case the two seconds of `InitTx` are over. -/
theorem tx_after_initTx (conv : IntConversion) (statics : Timer.Statics)
    (hstatics : Settled statics) (memory : Vtmr long) (half : TxHalf) (hopen : half.Open)
    (waits : List Wait) (hclose : ∀ wait ∈ waits, wait.ticks ≤ 2 ^ 31 - 2000)
    (hlong : 2000 ≤ ticksOf waits)
    (hpossible : ∀ wait ∈ waits, ∀ results ∈ wait.passes, results.Possible)
    (package : List UInt8) (sent : ℤ) :
    ∃ waited, initTx conv statics memory half waits = some waited ∧
      (waited.half.txIsConnected = true →
        waited.half.tx package sent = (sent, package.take sent.toNat)) ∧
      (waited.half.txIsConnected = false →
        waited.half.tx package sent = (0, []) ∧ 2000 ≤ waited.ticks) := by
  obtain ⟨s, hs, memory', hinit⟩ := exists_initTx_eq conv hstatics memory half waits
  rw [hinit]
  obtain ⟨before, last, after, waited, rfl, hreturns, hends⟩ :=
    waitLoop_ends conv memory' hs half hclose hlong
  have hwaited : waited.half.Open := by
    rw [hends.half_eq]
    refine hopen.reconnect fun results hresults => ?_
    rcases List.mem_append.mp hresults with hbefore | hlast
    · obtain ⟨wait, hwait, hpass⟩ := List.mem_flatMap.mp hbefore
      exact hpossible wait (List.mem_append_left _ hwait) results hpass
    · exact hpossible last (List.mem_append_right _ List.mem_cons_self) results hlast
  refine ⟨waited, hreturns, fun hflag => ?_, fun hflag => ⟨?_, ?_⟩⟩
  · rw [TxHalf.tx, if_pos ⟨hwaited hflag, hflag⟩]
  · rw [TxHalf.tx, if_neg]
    rintro ⟨-, hconnected⟩
    rw [hflag] at hconnected
    cases hconnected
  · have hexpired : waited.expired = true := by
      by_contra hnot
      have hconnected := hends.connected (by simpa using hnot)
      rw [hflag] at hconnected
      cases hconnected
    have hticks := hends.expired.mp hexpired
    omega

/-- A `Tx` of three bytes on the connection that the second pass has opened. -/
theorem tx_after_initTx_connected :
    ∃ waited, initTx (IntConversion.withDefault 0) .zero
        ({ mode := 7, start := 0, timeout := 0 } : Vtmr .bits32) .constructed
        [⟨100, [⟨3, false, false⟩]⟩, ⟨400, [⟨3, true, false⟩]⟩, ⟨1500, []⟩] = some waited ∧
      waited.half.txIsConnected = true ∧ waited.half.tx [1, 2, 3] 3 = (3, [1, 2, 3]) := by
  obtain ⟨waited, hreturns, hsends, -⟩ :=
    tx_after_initTx (IntConversion.withDefault 0) .zero (.inl rfl)
      { mode := 7, start := 0, timeout := 0 } .constructed (fun hflag => by cases hflag)
      [⟨100, [⟨3, false, false⟩]⟩, ⟨400, [⟨3, true, false⟩]⟩, ⟨1500, []⟩] (by decide) (by decide)
      (by simp [TxHalf.ReconnectResults.Possible]) [1, 2, 3] 3
  have hconnects : (initTx (IntConversion.withDefault 0) .zero
      ({ mode := 7, start := 0, timeout := 0 } : Vtmr .bits32) .constructed
      [⟨100, [⟨3, false, false⟩]⟩, ⟨400, [⟨3, true, false⟩]⟩, ⟨1500, []⟩]).map
        (fun waited => waited.half.txIsConnected) = some true := by decide +kernel
  rw [hreturns] at hconnects
  have hflag : waited.half.txIsConnected = true := Option.some.inj hconnects
  exact ⟨waited, hreturns, hflag, hsends hflag⟩

end XbeeAssignment.Socket
