import XbeeAssignment.XBee.LossyLink

/-!
# `main`: the command loop

Every turn of the loop extracts a character from the standard input and starts the
exchange the character stands for.  The result of the extraction is not looked at: at the
end of the input `human_cmd` keeps its value, so that the loop goes on with the last
command for ever.  In terms of `commandAt`, the commands that are executed turn by turn,
the loop is described by `console`.

* `q` ends the program.
* `a` enters a loop of its own, which reads nothing any more.
* `b` calls `frame_constructer`, which assigns to the first element of an empty vector.
* Every other character starts at most one exchange with the end node.

A call of `send` starts a thread and returns, so the loop never waits for an exchange.
-/

namespace XbeeAssignment.Main

open XBee

/-! ## The requests -/

/-- The bytes of `end_node_address`. -/
def endNodeBytes : Array UInt8 := #[0x00, 0x13, 0xA2, 0x00, 0x40, 0xE7, 0x1A, 0xDD]

/-- `end_node_address`. -/
def endNodeAddress : Vector UInt8 8 := ⟨endNodeBytes, rfl⟩

/-- `"IS"`. -/
def cmdIS : List UInt8 := [0x49, 0x53]

/-- `"PR"`. -/
def cmdPR : List UInt8 := [0x50, 0x52]

/-- `"D1"`. -/
def cmdD1 : List UInt8 := [0x44, 0x31]

/-- `NO_PARAMS`. -/
def noParams : List UInt8 := []

/-- The callbacks `main` passes. -/
inductive Callback
  | getTemp
  | enableTempSens
  deriving DecidableEq

/-- The arguments of a call of `send`. -/
structure Sent where
  call : SendCall
  callback : Callback
  deriving DecidableEq

/-- `IS`: sample the temperature sensor. -/
def sampleSensor : Sent where
  call := { address := endNodeAddress, cmd := cmdIS, cmdParams := noParams,
            two_le := by decide }
  callback := .getTemp

/-- `PR`: clear the remote control bit. -/
def clearControlBit : Sent where
  call := { address := endNodeAddress, cmd := cmdPR, cmdParams := [0x1F, 0xFD],
            two_le := by decide }
  callback := .enableTempSens

/-- `PR`: set the remote control bit. -/
def setControlBit : Sent where
  call := { address := endNodeAddress, cmd := cmdPR, cmdParams := [0x1F, 0xFF],
            two_le := by decide }
  callback := .enableTempSens

/-- `D1`: the debug option. -/
def debugOption : Sent where
  call := { address := endNodeAddress, cmd := cmdD1, cmdParams := [2],
            two_le := by decide }
  callback := .enableTempSens

/-! ## The loop -/

/-- What a command makes of the loop. -/
inductive Turn
  | exit
  | autoRun
  | undefined
  | sends (sent : List Sent)

/-- `frame_constructer`: `params` is empty when `params[0]` is assigned to. -/
def frameConstructer : Turn := .undefined

/-- The `switch`. -/
def dispatch : Char → Turn
  | 'q' => .exit
  | 't' => .sends [sampleSensor]
  | '0' => .sends [clearControlBit]
  | '1' => .sends [setControlBit]
  | 'a' => .autoRun
  | 'b' => frameConstructer
  | 'c' => .sends [debugOption]
  | _ => .sends []

/-- `isspace`. -/
def isSpace (char : Char) : Bool :=
  char = ' ' || (9 ≤ char.toNat && char.toNat ≤ 13)

/-- `cin >> human_cmd`, which fails at the end of the input. -/
def extract (stdin : List Char) (humanCmd : Char) : List Char × Char :=
  match stdin.dropWhile isSpace with
  | [] => ([], humanCmd)
  | char :: rest => (rest, char)

/-- Where `main` stands. -/
inductive Place
  | reading (stdin : List Char) (humanCmd : Char)
  /-- In the loop of `a`. -/
  | autoRun
  | exited
  | undefined

/-- One turn of the loop `main` is in. -/
def turn : Place → Place × List Sent
  | .reading stdin humanCmd =>
      let (stdin, humanCmd) := extract stdin humanCmd
      match dispatch humanCmd with
      | .exit => (.exited, [])
      | .autoRun => (.autoRun, [])
      | .undefined => (.undefined, [])
      | .sends sent => (.reading stdin humanCmd, sent)
  | .autoRun => (.autoRun, [sampleSensor])
  | .exited => (.exited, [])
  | .undefined => (.undefined, [])

/-- The value `human_cmd` is declared with. -/
def noCommand : Char := Char.ofNat 0

/-- After so many turns: where `main` stands and what it has sent. -/
def after (stdin : List Char) : ℕ → Place × List Sent
  | 0 => (.reading stdin noCommand, [])
  | n + 1 => ((turn (after stdin n).1).1, (after stdin n).2 ++ (turn (after stdin n).1).2)

/-! ## The commands in order -/

/-- The characters that are extracted. -/
def commands (stdin : List Char) : List Char :=
  stdin.filter fun char => !isSpace char

/-- The command of turn `k`: the last one, if there are no more. -/
def commandAt (stdin : List Char) (k : ℕ) : Char :=
  (commands stdin).getD k ((commands stdin).getLastD noCommand)

theorem dropWhile_isSpace (stdin : List Char) :
    (stdin.dropWhile isSpace = [] ∧ commands stdin = []) ∨
      ∃ char rest, stdin.dropWhile isSpace = char :: rest ∧
        commands stdin = char :: commands rest := by
  induction stdin with
  | nil => exact .inl ⟨rfl, rfl⟩
  | cons char stdin ih =>
      cases hspace : isSpace char with
      | true =>
          have hdrop : (char :: stdin).dropWhile isSpace = stdin.dropWhile isSpace := by
            rw [List.dropWhile_cons, if_pos hspace]
          have hcommands : commands (char :: stdin) = commands stdin := by
            unfold commands
            rw [List.filter_cons_of_neg (by simp [hspace])]
          rw [hdrop, hcommands]
          exact ih
      | false =>
          refine .inr ⟨char, stdin, ?_, ?_⟩
          · rw [List.dropWhile_cons, hspace]
            rfl
          · unfold commands
            rw [List.filter_cons_of_pos (by simp [hspace])]

/-- Extracting takes the next command, or keeps the one before. -/
theorem commands_extract (stdin : List Char) (humanCmd : Char) :
    commands (extract stdin humanCmd).1 = (commands stdin).tail ∧
      (extract stdin humanCmd).2 = (commands stdin).headD humanCmd := by
  unfold extract
  rcases dropWhile_isSpace stdin with ⟨hdrop, hcommands⟩ | ⟨char, rest, hdrop, hcommands⟩
  · rw [hdrop, hcommands]
    exact ⟨rfl, rfl⟩
  · rw [hdrop, hcommands]
    exact ⟨rfl, rfl⟩

/-- The command executed before turn `n`. -/
def commandBefore (stdin : List Char) : ℕ → Char
  | 0 => noCommand
  | n + 1 => commandAt stdin n

/-- The next of the commands, or the one before, is the command of the turn. -/
theorem headD_drop_commands (stdin : List Char) (n : ℕ) :
    ((commands stdin).drop n).headD (commandBefore stdin n) = commandAt stdin n := by
  rcases Nat.lt_or_ge n (commands stdin).length with hlt | hge
  · rw [List.drop_eq_getElem_cons hlt, List.headD_cons, commandAt, List.getD_eq_getElem _ _ hlt]
  · -- no command is left
    rw [List.drop_eq_nil_of_le hge, List.headD_nil, commandAt, List.getD_eq_default _ _ hge]
    cases n with
    | zero =>
        rw [List.length_eq_zero_iff.mp (Nat.le_zero.mp hge)]
        rfl
    | succ n =>
        rcases Nat.lt_or_ge n (commands stdin).length with hlast | hbeyond
        · have hlength : (commands stdin).length = n + 1 := by omega
          rw [commandBefore, commandAt, List.getD_eq_getElem _ _ hlast,
            List.getLastD_eq_getLast?, List.getLast?_eq_getElem?, hlength, Nat.add_sub_cancel,
            List.getElem?_eq_getElem hlast, Option.getD_some]
        · rw [commandBefore, commandAt, List.getD_eq_default _ _ hbeyond]

/-! ## The turns -/

/-- A command that leaves the loop running. -/
def Plain (char : Char) : Prop :=
  char ≠ 'q' ∧ char ≠ 'a' ∧ char ≠ 'b'

instance (char : Char) : Decidable (Plain char) :=
  inferInstanceAs (Decidable (_ ∧ _ ∧ _))

/-- What a command sends. -/
def sentFor (char : Char) : List Sent :=
  match dispatch char with
  | .sends sent => sent
  | .exit | .autoRun | .undefined => []

/-- What the first `n` commands send. -/
def sentIn (stdin : List Char) (n : ℕ) : List Sent :=
  (List.range n).flatMap fun k => sentFor (commandAt stdin k)

theorem dispatch_of_plain {char : Char} (hplain : Plain char) :
    dispatch char = .sends (sentFor char) := by
  obtain ⟨hq, ha, hb⟩ := hplain
  have hsends : ∃ sent, dispatch char = .sends sent := by
    unfold dispatch
    split
    · exact absurd rfl hq
    · exact ⟨_, rfl⟩
    · exact ⟨_, rfl⟩
    · exact ⟨_, rfl⟩
    · exact absurd rfl ha
    · exact absurd rfl hb
    · exact ⟨_, rfl⟩
    · exact ⟨_, rfl⟩
  obtain ⟨sent, hsent⟩ := hsends
  rw [sentFor, hsent]

theorem sentIn_succ (stdin : List Char) (n : ℕ) :
    sentIn stdin (n + 1) = sentIn stdin n ++ sentFor (commandAt stdin n) := by
  unfold sentIn
  rw [List.range_succ, List.flatMap_append, List.flatMap_singleton]

/-- The loop reads its turn's command and acts on it. -/
theorem turn_reading {stdin rest : List Char} {n : ℕ}
    (hrest : commands rest = (commands stdin).drop n) :
    ∃ left, commands left = (commands stdin).drop (n + 1) ∧
      turn (.reading rest (commandBefore stdin n)) =
        match dispatch (commandAt stdin n) with
        | .exit => (.exited, [])
        | .autoRun => (.autoRun, [])
        | .undefined => (.undefined, [])
        | .sends sent => (.reading left (commandAt stdin n), sent) := by
  obtain ⟨hleft, hcommand⟩ := commands_extract rest (commandBefore stdin n)
  rw [hrest, headD_drop_commands] at hcommand
  rw [hrest, List.tail_drop] at hleft
  refine ⟨_, hleft, ?_⟩
  simp only [turn, hcommand]

/-- The loop is still running after `n` turns. -/
structure Running (stdin : List Char) (n : ℕ) : Prop where
  plain : ∀ k < n, Plain (commandAt stdin k)
  reading : ∃ rest, commands rest = (commands stdin).drop n ∧
    after stdin n = (.reading rest (commandBefore stdin n), sentIn stdin n)

/-- The loop was left in turn `m`. -/
structure LeftIn (stdin : List Char) (m n : ℕ) : Prop where
  lt : m < n
  plain : ∀ k < m, Plain (commandAt stdin k)
  left : (commandAt stdin m = 'q' ∧ after stdin n = (.exited, sentIn stdin m)) ∨
    (commandAt stdin m = 'b' ∧ after stdin n = (.undefined, sentIn stdin m)) ∨
    (commandAt stdin m = 'a' ∧ after stdin n =
      (.autoRun, sentIn stdin m ++ List.replicate (n - (m + 1)) sampleSensor))

theorem Running.turn {stdin : List Char} {n : ℕ} (h : Running stdin n) :
    Running stdin (n + 1) ∨ LeftIn stdin n (n + 1) := by
  obtain ⟨rest, hrest, hafter⟩ := h.reading
  obtain ⟨left, hleft, hturn⟩ := turn_reading hrest
  have hstep : after stdin (n + 1) =
      ((Main.turn (.reading rest (commandBefore stdin n))).1,
        sentIn stdin n ++ (Main.turn (.reading rest (commandBefore stdin n))).2) := by
    rw [after, hafter]
  rw [hturn] at hstep
  by_cases hplain : Plain (commandAt stdin n)
  · refine .inl { plain := fun k hk => ?_, reading := ⟨left, hleft, ?_⟩ }
    · rcases Nat.lt_succ_iff_lt_or_eq.mp hk with hlt | rfl
      · exact h.plain k hlt
      · exact hplain
    · rw [hstep, dispatch_of_plain hplain, sentIn_succ, commandBefore]
  · refine .inr { lt := n.lt_succ_self, plain := h.plain, left := ?_ }
    by_cases hquit : commandAt stdin n = 'q'
    · refine .inl ⟨hquit, ?_⟩
      rw [hstep, hquit]
      exact congrArg _ (List.append_nil _)
    by_cases hbuild : commandAt stdin n = 'b'
    · refine .inr (.inl ⟨hbuild, ?_⟩)
      rw [hstep, hbuild]
      exact congrArg _ (List.append_nil _)
    · have hauto : commandAt stdin n = 'a' := by
        by_contra hne
        exact hplain ⟨hquit, hne, hbuild⟩
      refine .inr (.inr ⟨hauto, ?_⟩)
      rw [hstep, hauto, Nat.sub_self]
      rfl

theorem LeftIn.turn {stdin : List Char} {m n : ℕ} (h : LeftIn stdin m n) :
    LeftIn stdin m (n + 1) := by
  refine { lt := h.lt.trans n.lt_succ_self, plain := h.plain, left := ?_ }
  rcases h.left with ⟨hquit, hafter⟩ | ⟨hbuild, hafter⟩ | ⟨hauto, hafter⟩
  · refine .inl ⟨hquit, ?_⟩
    rw [after, hafter]
    exact congrArg _ (List.append_nil _)
  · refine .inr (.inl ⟨hbuild, ?_⟩)
    rw [after, hafter]
    exact congrArg _ (List.append_nil _)
  · -- another sample
    have hlt := h.lt
    have hcount : n + 1 - (m + 1) = n - (m + 1) + 1 := by omega
    refine .inr (.inr ⟨hauto, ?_⟩)
    rw [after, hafter, hcount, List.replicate_succ', ← List.append_assoc]
    rfl

/-- The command it was left for is not plain. -/
theorem LeftIn.not_plain {stdin : List Char} {m n : ℕ} (h : LeftIn stdin m n) :
    ¬ Plain (commandAt stdin m) := by
  rintro ⟨hq, ha, hb⟩
  rcases h.left with ⟨hquit, -⟩ | ⟨hbuild, -⟩ | ⟨hauto, -⟩
  · exact hq hquit
  · exact hb hbuild
  · exact ha hauto

/-- The run lemma. -/
theorem running_or_leftIn (stdin : List Char) (n : ℕ) :
    Running stdin n ∨ ∃ m, LeftIn stdin m n := by
  induction n with
  | zero =>
      exact .inl { plain := fun k hk => absurd hk k.not_lt_zero, reading := ⟨stdin, rfl, rfl⟩ }
  | succ n ih =>
      rcases ih with hrunning | ⟨m, hleft⟩
      · rcases hrunning.turn with hrunning' | hleft
        · exact .inl hrunning'
        · exact .inr ⟨n, hleft⟩
      · exact .inr ⟨m, hleft.turn⟩

/-- Plain commands do not end the loop. -/
theorem running_of_plain {stdin : List Char} {n : ℕ}
    (hplain : ∀ k < n, Plain (commandAt stdin k)) : Running stdin n := by
  rcases running_or_leftIn stdin n with hrunning | ⟨m, hleft⟩
  · exact hrunning
  · exact absurd (hplain m hleft.lt) hleft.not_plain

/-- The first command that is not plain does. -/
theorem leftIn_of_not_plain {stdin : List Char} {m n : ℕ} (hlt : m < n)
    (hbefore : ∀ k < m, Plain (commandAt stdin k)) (hplain : ¬ Plain (commandAt stdin m)) :
    LeftIn stdin m n := by
  rcases running_or_leftIn stdin n with hrunning | ⟨m', hleft⟩
  · exact absurd (hrunning.plain m hlt) hplain
  · rcases Nat.lt_trichotomy m m' with hless | rfl | hgreater
    · exact absurd (hleft.plain m hless) hplain
    · exact hleft
    · exact absurd (hbefore m' hgreater) hleft.not_plain

/-- **The command loop.**  After any number of turns over any input: if all commands so far were
plain, the loop is still reading and has sent what they send; if one of them was not, the first such
command decides.  After `q` the program has ended, after `b` its behaviour is undefined, and after
`a` every turn has sent a sample and read nothing. -/
theorem console (stdin : List Char) (n : ℕ) :
    ((∀ k < n, Plain (commandAt stdin k)) →
        ∃ rest, commands rest = (commands stdin).drop n ∧
          after stdin n = (.reading rest (commandBefore stdin n), sentIn stdin n)) ∧
      ∀ m < n, (∀ k < m, Plain (commandAt stdin k)) →
        (commandAt stdin m = 'q' → after stdin n = (.exited, sentIn stdin m)) ∧
        (commandAt stdin m = 'b' → after stdin n = (.undefined, sentIn stdin m)) ∧
        (commandAt stdin m = 'a' → after stdin n =
          (.autoRun, sentIn stdin m ++ List.replicate (n - (m + 1)) sampleSensor)) := by
  refine ⟨fun hplain => (running_of_plain hplain).reading, fun m hlt hbefore => ?_⟩
  refine ⟨fun hquit => ?_, fun hbuild => ?_, fun hauto => ?_⟩
  · have hleft := leftIn_of_not_plain hlt hbefore fun hplain => hplain.1 hquit
    rcases hleft.left with ⟨-, hafter⟩ | ⟨hother, -⟩ | ⟨hother, -⟩
    · exact hafter
    all_goals exact absurd (hquit.symm.trans hother) (by decide)
  · have hleft := leftIn_of_not_plain hlt hbefore fun hplain => hplain.2.2 hbuild
    rcases hleft.left with ⟨hother, -⟩ | ⟨-, hafter⟩ | ⟨hother, -⟩
    · exact absurd (hbuild.symm.trans hother) (by decide)
    · exact hafter
    · exact absurd (hbuild.symm.trans hother) (by decide)
  · have hleft := leftIn_of_not_plain hlt hbefore fun hplain => hplain.2.1 hauto
    rcases hleft.left with ⟨hother, -⟩ | ⟨hother, -⟩ | ⟨-, hafter⟩
    · exact absurd (hauto.symm.trans hother) (by decide)
    · exact absurd (hauto.symm.trans hother) (by decide)
    · exact hafter

/-- `0`, then `a`: the `q` behind them is never read. -/
theorem console_auto :
    after [ '0', 'a', 'q'] 4 =
      (.autoRun, [clearControlBit, sampleSensor, sampleSensor]) := by
  have hbefore : ∀ k < 1, Plain (commandAt [ '0', 'a', 'q'] k) := by
    intro k hk
    obtain rfl : k = 0 := by omega
    decide
  exact ((console [ '0', 'a', 'q'] 4).2 1 (by decide) hbefore).2.2 rfl

/-! ## The end of the input -/

theorem mem_commands_of_lt {stdin : List Char} {k : ℕ} (hk : k < (commands stdin).length) :
    commandAt stdin k ∈ commands stdin := by
  rw [commandAt, List.getD_eq_getElem _ _ hk]
  exact List.getElem_mem hk

/-- The command that is repeated. -/
theorem commandAt_of_le {stdin : List Char} {k : ℕ} (hk : (commands stdin).length ≤ k) :
    commandAt stdin k = (commands stdin).getLastD noCommand := by
  rw [commandAt, List.getD_eq_default _ _ hk]

theorem plain_commandAt {stdin : List Char} (hplain : ∀ char ∈ commands stdin, Plain char)
    (k : ℕ) : Plain (commandAt stdin k) := by
  rcases Nat.lt_or_ge k (commands stdin).length with hlt | hge
  · exact hplain _ (mem_commands_of_lt hlt)
  · rw [commandAt_of_le hge]
    cases hlast : (commands stdin).getLast? with
    | none =>
        rw [List.getLastD_eq_getLast?, hlast]
        decide
    | some last =>
        rw [List.getLastD_eq_getLast?, hlast]
        exact hplain last (List.mem_of_getLast? hlast)

theorem sentIn_of_le {stdin : List Char} {n : ℕ} (hn : n ≤ (commands stdin).length) :
    sentIn stdin n = ((commands stdin).take n).flatMap sentFor := by
  induction n with
  | zero => rfl
  | succ n ih =>
      have hlt : n < (commands stdin).length := hn
      rw [sentIn_succ, ih hlt.le, List.take_succ_eq_append_getElem hlt, List.flatMap_append,
        List.flatMap_singleton, commandAt, List.getD_eq_getElem _ _ hlt]

/-- **The end of the input.**  If no command leaves the loop, then from the end of the input on
every turn sends once more what the last command sends, without end. -/
theorem end_of_input (stdin : List Char) (hplain : ∀ char ∈ commands stdin, Plain char) (m : ℕ) :
    Running stdin ((commands stdin).length + m) ∧
      (after stdin ((commands stdin).length + m)).2 =
        (commands stdin).flatMap sentFor ++
          (List.replicate m (sentFor ((commands stdin).getLastD noCommand))).flatten := by
  have hrunning : Running stdin ((commands stdin).length + m) :=
    running_of_plain fun k _ => plain_commandAt hplain k
  refine ⟨hrunning, ?_⟩
  obtain ⟨rest, -, hafter⟩ := hrunning.reading
  rw [hafter]
  show sentIn stdin ((commands stdin).length + m) = _
  clear hafter hrunning
  induction m with
  | zero => simp [sentIn_of_le le_rfl]
  | succ m ih =>
      rw [← Nat.add_assoc, sentIn_succ, ih, commandAt_of_le (Nat.le_add_right _ m),
        List.replicate_succ', List.flatten_append, List.flatten_singleton, List.append_assoc]

/-- A single `t`, and then a sample a turn. -/
theorem end_of_input_sample :
    (after [ 't', ' '] (1 + 4)).2 = List.replicate 5 sampleSensor := by
  have hcommands : commands [ 't', ' '] = [ 't'] := rfl
  have hplain : ∀ char ∈ commands [ 't', ' '], Plain char := by
    intro char hchar
    rw [hcommands, List.mem_singleton] at hchar
    subst hchar
    exact ⟨by decide, by decide, by decide⟩
  exact (end_of_input [ 't', ' '] hplain 4).2

/-! ## The exchanges -/

/-- The requests of the commands. -/
def requests : List Sent := [sampleSensor, clearControlBit, setControlBit, debugOption]

theorem subset_of_dispatch {char : Char} {sent : List Sent}
    (hdispatch : dispatch char = .sends sent) : sent ⊆ requests := by
  unfold dispatch at hdispatch
  split at hdispatch <;> cases hdispatch <;> simp [requests]

theorem sentFor_subset (char : Char) : sentFor char ⊆ requests := by
  unfold sentFor
  split
  · next hdispatch => exact subset_of_dispatch hdispatch
  all_goals exact List.nil_subset _

theorem sentIn_subset (stdin : List Char) (n : ℕ) : sentIn stdin n ⊆ requests := by
  intro sent hsent
  obtain ⟨k, -, hk⟩ := List.mem_flatMap.mp hsent
  exact sentFor_subset _ hk

/-- Nothing but the four requests is ever sent. -/
theorem after_subset (stdin : List Char) (n : ℕ) : (after stdin n).2 ⊆ requests := by
  rcases running_or_leftIn stdin n with hrunning | ⟨m, hleft⟩
  · obtain ⟨rest, -, hafter⟩ := hrunning.reading
    rw [hafter]
    exact sentIn_subset stdin n
  · rcases hleft.left with ⟨-, hafter⟩ | ⟨-, hafter⟩ | ⟨-, hafter⟩
    · rw [hafter]
      exact sentIn_subset stdin m
    · rw [hafter]
      exact sentIn_subset stdin m
    · rw [hafter]
      refine List.append_subset.mpr ⟨sentIn_subset stdin m, fun sent hsent => ?_⟩
      rw [List.eq_of_mem_replicate hsent]
      exact List.mem_cons_self

/-- What is passed to the constructor of `xbee_handler`. -/
def globalRetries : UInt32 := 20

/-- Every request is for the end node and has two parameters at most. -/
theorem of_mem_requests {sent : Sent} (hsent : sent ∈ requests) :
    sent.call.address = endNodeAddress ∧ sent.call.cmdParams.length ≤ 2 := by
  have hall : ∀ sent ∈ requests,
      sent.call.address = endNodeAddress ∧ sent.call.cmdParams.length ≤ 2 := by decide
  exact hall sent hsent

/-- **The exchanges of `main`.**  Whatever is typed, every exchange builds its frame: of 21 bytes at
most, for the end node, and decoded as the request that was sent.  On an open serial line it writes
this frame one to twenty times and returns; on one that could not be opened it ends the process
without writing. -/
theorem exchanges (stdin : List Char) (n : ℕ) (sent : Sent) (hsent : sent ∈ (after stdin n).2)
    (serialFd : ℤ) (outcomes : ℕ → ReceiveExit) :
    ∃ frame, txFrame sent.call.address sent.call.cmd sent.call.cmdParams = some frame ∧
      frame.length ≤ 21 ∧ decodeRequest frame = sent.call.request ∧
      sent.call.request.address = endNodeAddress ∧
      (serialFd ≠ -1 →
        (exchangeThread serialFd globalRetries sent.call.address sent.call.cmd
          sent.call.cmdParams outcomes).ending = .returned ∧
        ∃ k, 1 ≤ k ∧ k ≤ 20 ∧ (exchangeThread serialFd globalRetries sent.call.address sent.call.cmd
          sent.call.cmdParams outcomes).writes = List.replicate k frame) ∧
      (serialFd = -1 →
        exchangeThread serialFd globalRetries sent.call.address sent.call.cmd
            sent.call.cmdParams outcomes =
          { writes := [], calls := [], ending := .badDescriptor }) := by
  obtain ⟨haddress, hparams⟩ := of_mem_requests (after_subset stdin n hsent)
  obtain ⟨frame, hframe⟩ := exists_txFrame sent.call.address sent.call.cmdParams sent.call.two_le
  have hlength := length_txFrame sent.call.two_le hframe
  refine ⟨frame, hframe, by omega, SendCall.decodeRequest_eq (by omega) hframe, haddress, ?_, ?_⟩
  · intro hserial
    obtain ⟨k, hk, hwrites⟩ := writes_exchangeLoop frame globalRetries outcomes
    have hlow : ((1 : ℕ) : ℕ∞) ≤ k := by
      rw [hk]
      exact le_min (one_le_firstSuccess outcomes) (by decide)
    have hhigh : (k : ℕ∞) ≤ ((20 : ℕ) : ℕ∞) := by
      rw [hk]
      exact min_le_right ..
    have hloop := exchangeThread_toLoopTrace hserial globalRetries outcomes hframe
    refine ⟨?_, k, by exact_mod_cast hlow, by exact_mod_cast hhigh, ?_⟩
    · rw [exchangeThread, hframe]
      simp only [if_neg hserial]
    · rw [hloop]
      exact hwrites
  · intro hserial
    rw [exchangeThread, hframe]
    simp only [if_pos hserial]

/-- The exchange of a single `t`. -/
theorem exchanges_sample :
    ∃ frame, txFrame endNodeAddress cmdIS noParams = some frame ∧ frame.length ≤ 21 ∧
      decodeRequest frame = sampleSensor.call.request := by
  obtain ⟨frame, hframe, hlength, hdecode, -⟩ :=
    exchanges [ 't'] 1 sampleSensor (by decide) 3 fun _ => .checksumError
  exact ⟨frame, hframe, hlength, hdecode⟩

end XbeeAssignment.Main
