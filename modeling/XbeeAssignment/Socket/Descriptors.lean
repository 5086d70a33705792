import XbeeAssignment.Lib.Ledger
import XbeeAssignment.Lib.Transition
import XbeeAssignment.Socket.Listener
import XbeeAssignment.Socket.Transmit

/-!
# Who closes a descriptor

`InitRx`, `accept` and a pass of `TxReconnect` obtain descriptors and store them in
`rx_socket_desc`, in the `Id` of an entry of `ClientList` and in `tx_socket_desc`.
A pass and `DestroyTx` close `tx_socket_desc`; `DestroyRx` looks at `rx_socket_desc`
but closes `tx_socket_desc` too, and nothing closes an `Id`.

The accounts of a whole run are kept in a `Ledger`.  Between two operations
`rx_socket_desc` is open unless it is `-1`, and `tx_socket_desc` is open exactly if the
flag is set (`Kept`), so what an operation does to the accounts can be told before it
(`KeepsAccounts`).
-/

namespace XbeeAssignment.Socket

open Transition

/-- The two halves of a `Socket`. -/
inductive Direction
  | rx
  | tx
  deriving DecidableEq

/-- The fields that hold a descriptor. -/
inductive Holder
  | rx
  | tx
  | client (slot : Fin maxClients)
  deriving DecidableEq

/-- The half a field belongs to. -/
def Holder.direction : Holder → Direction
  | .rx | .client _ => .rx
  | .tx => .tx

/-- `DestroyRx`, and the descriptors it passes to `close`. -/
def destroyRx (sock : Socket) (txSocketDesc : ℤ) : Socket × List ℤ :=
  ({ sock with clientList := fun _ => .zero, rxSocketDesc := -1 },
    if sock.rxSocketDesc ≠ -1 then [txSocketDesc] else [])

/-- A `Socket` with the ledger of its descriptors. -/
structure Descriptors where
  sock : Socket
  half : TxHalf
  ledger : Ledger ℤ Holder Direction
  /-- The last `InitRx` has returned `1`: there is a listener, and its socket is listening. -/
  listening : Bool
  /-- `InitTx` has started a thread. -/
  reconnecting : Bool
  destroyed : Bool

inductive DescEvent
  | initRx (packageSize : ℤ) (callback : Bool) (results : InitResults)
  | accept (conn : Connection)
  | initTx
  | reconnectPass (results : TxHalf.ReconnectResults)
  | destroyRx
  | destroyTx
  /-- `~Socket`. -/
  | destruct

namespace Descriptors

/-- After the constructor. -/
def start (packageSize : ℤ) (clientList : Fin maxClients → Client) : Descriptors :=
  { sock := constructed packageSize clientList, half := .constructed, ledger := .empty,
    listening := false, reconnecting := false, destroyed := false }

/-- The number in a field. -/
def field (s : Descriptors) : Holder → ℤ
  | .rx => s.sock.rxSocketDesc
  | .tx => s.half.txSocketDesc
  | .client slot => (s.sock.clientList slot).id

/-- What `socket` and `accept` can return: a number that is not in use. -/
def Free (ledger : Ledger ℤ Holder Direction) (desc : ℤ) : Prop :=
  0 ≤ desc ∧ ledger.holder desc = none

instance (ledger : Ledger ℤ Holder Direction) (desc : ℤ) : Decidable (Free ledger desc) :=
  inferInstanceAs (Decidable (_ ∧ _))

/-- The ledger after calls of `close`, which do nothing to `-1`. -/
def closed (ledger : Ledger ℤ Holder Direction) (direction : Direction) (descs : List ℤ) :
    Ledger ℤ Holder Direction :=
  descs.foldl (fun ledger desc => if desc = -1 then ledger else ledger.release direction desc)
    ledger

/-! ## The operations

`socket` and `accept` return `-1` if they fail. -/

def initRx (s : Descriptors) (packageSize : ℤ) (callback : Bool) (results : InitResults) :
    Descriptors :=
  let init := s.sock.initRx packageSize callback results
  { s with sock := init.1, ledger := s.ledger.acquireUnless (-1) results.socket .rx
           listening := init.2 = 1 }

/-- `accept` in the listener, which finds the entry for the connection. -/
def accept (s : Descriptors) (conn : Connection) (slot : Fin maxClients) : Descriptors :=
  { s with
    sock := { s.sock with
              clientList := Function.update s.sock.clientList slot
                (acceptClient conn (s.sock.clientList slot)) }
    ledger := s.ledger.acquireUnless (-1) conn.desc (.client slot) }

def reconnectPass (s : Descriptors) (results : TxHalf.ReconnectResults) : Descriptors :=
  let pass := s.half.reconnectPass results
  let ledger :=
    if s.half.txIsConnected then s.ledger else s.ledger.acquireUnless (-1) results.socket .tx
  { s with half := pass.1, ledger := closed ledger .tx pass.2 }

def destroyRx (s : Descriptors) : Descriptors :=
  let destroy := s.sock.destroyRx s.half.txSocketDesc
  { s with sock := destroy.1, ledger := closed s.ledger .rx destroy.2 }

def destroyTx (s : Descriptors) : Descriptors :=
  let destroy := s.half.destroyTx
  { s with half := destroy.1, ledger := closed s.ledger .tx destroy.2 }

/-- One operation on an object that is not destroyed.  A connection needs the listener and a
listening socket, and ends the process if there is no entry for it; a pass needs a thread, and
connects only what `socket` has made. -/
def next (s : Descriptors) (event : DescEvent) : Option Descriptors :=
  if s.destroyed then none
  else
    match event with
    | .initRx packageSize callback results =>
        if results.socket = -1 ∨ Free s.ledger results.socket then
          some (s.initRx packageSize callback results)
        else none
    | .accept conn =>
        if s.listening ∧ s.sock.rxSocketDesc ≠ -1 ∧ Free s.ledger conn.desc then
          s.sock.freeSlot.map (s.accept conn)
        else none
    | .initTx => some { s with reconnecting := true }
    | .reconnectPass results =>
        if s.reconnecting ∧ (s.half.txIsConnected = false →
            Free s.ledger results.socket ∨ results.socket = -1 ∧ results.connects = false) then
          some (s.reconnectPass results)
        else none
    | .destroyRx => some s.destroyRx
    | .destroyTx => some s.destroyTx
    | .destruct => some { s.destroyTx.destroyRx with destroyed := true }

/-! ## The accounts -/

/-- Every descriptor in use is in its field, every `close` was of one in use and made by its half,
an established connection is open, and after the destructor nothing is. -/
structure Accounted (s : Descriptors) : Prop where
  held : s.ledger.Held s.field
  rightful : s.ledger.Rightful Holder.direction
  established : s.half.txIsConnected = true → s.ledger.holder s.half.txSocketDesc = some .tx
  all_closed : s.destroyed = true → ∀ desc, s.ledger.holder desc = none

/-- The accounts are in order, and the two descriptors say themselves whether they are open. -/
structure Kept (s : Descriptors) : Prop extends s.Accounted where
  no_descriptor : ∀ desc holder, s.ledger.holder desc = some holder → 0 ≤ desc
  rx_open : s.sock.rxSocketDesc ≠ -1 → s.ledger.holder s.sock.rxSocketDesc = some .rx
  tx_established : ∀ desc, s.ledger.holder desc = some .tx → s.half.txIsConnected = true

/-- What must hold before an operation.  `InitRx` and `accept` must not overwrite an open
descriptor, `DestroyRx` must not have one of its own (unless `tx_socket_desc`, which it
closes, is the same number) and `DestroyTx` must not find a number that is closed already.  An
entry that is zeroed keeps the descriptor `0`. -/
def KeepsAccounts (s : Descriptors) : DescEvent → Prop
  | .initRx .. => s.sock.rxSocketDesc = -1
  | .accept _ => ∀ slot, s.sock.freeSlot = some slot →
      ∀ desc, s.ledger.holder desc ≠ some (.client slot)
  | .initTx | .reconnectPass _ => True
  | .destroyRx =>
      (s.sock.rxSocketDesc = -1 ∨ s.sock.rxSocketDesc = s.half.txSocketDesc) ∧
        ∀ desc slot, s.ledger.holder desc = some (.client slot) → desc = 0
  | .destroyTx => s.half.txSocketDesc = -1 ∨ s.half.txIsConnected = true
  | .destruct =>
      (s.half.txSocketDesc = -1 ∨ s.half.txIsConnected = true) ∧ s.sock.rxSocketDesc = -1 ∧
        ∀ desc slot, s.ledger.holder desc ≠ some (.client slot)

variable {s s' : Descriptors}

/-! ## Fields and descriptors -/

theorem Kept.minus_one (h : s.Kept) : s.ledger.holder (-1) = none := by
  cases hholder : s.ledger.holder (-1) with
  | none => rfl
  | some holder => exact absurd (h.no_descriptor _ _ hholder) (by omega)

theorem Kept.free (h : s.Kept) {desc : ℤ} (hfree : desc = -1 ∨ Free s.ledger desc) :
    s.ledger.holder desc = none := by
  rcases hfree with rfl | hfree
  · exact h.minus_one
  · exact hfree.2

theorem Kept.rx_eq (h : s.Kept) {desc : ℤ} (hholder : s.ledger.holder desc = some .rx) :
    s.sock.rxSocketDesc = desc :=
  h.held desc .rx hholder

theorem Kept.tx_eq (h : s.Kept) {desc : ℤ} (hholder : s.ledger.holder desc = some .tx) :
    s.half.txSocketDesc = desc :=
  h.held desc .tx hholder

theorem Kept.no_rx (h : s.Kept) (hrx : s.sock.rxSocketDesc = -1) (desc : ℤ) :
    s.ledger.holder desc ≠ some .rx := by
  intro hholder
  have hdesc := h.no_descriptor desc .rx hholder
  rw [← h.rx_eq hholder, hrx] at hdesc
  omega

theorem Kept.no_tx (h : s.Kept) (htx : s.half.txSocketDesc = -1 ∨ s.half.txIsConnected = false)
    (desc : ℤ) : s.ledger.holder desc ≠ some .tx := by
  intro hholder
  rcases htx with hnodesc | hflag
  · have hdesc := h.no_descriptor desc .tx hholder
    rw [← h.tx_eq hholder, hnodesc] at hdesc
    omega
  · rw [h.tx_established desc hholder] at hflag
    cases hflag

@[simp] theorem closed_nil (ledger : Ledger ℤ Holder Direction) (direction : Direction) :
    closed ledger direction [] = ledger := rfl

@[simp] theorem closed_singleton (ledger : Ledger ℤ Holder Direction) (direction : Direction)
    (desc : ℤ) :
    closed ledger direction [desc] =
      if desc = -1 then ledger else ledger.release direction desc := rfl

theorem Kept.no_descriptor_acquired (h : s.Kept) {desc desc' : ℤ} {holder holder' : Holder}
    (hfree : desc = -1 ∨ Free s.ledger desc)
    (hholder : (s.ledger.acquireUnless (-1) desc holder).holder desc' = some holder') :
    0 ≤ desc' := by
  rcases Ledger.holder_acquireUnless_cases hholder with ⟨rfl, -, hdesc⟩ | hold
  · exact (hfree.resolve_left hdesc).1
  · exact h.no_descriptor desc' holder' hold

/-! ## `InitRx` and `accept` -/

theorem field_initRx (packageSize : ℤ) (callback : Bool) (results : InitResults) :
    (s.initRx packageSize callback results).field =
      Function.update s.field .rx results.socket := by
  funext holder
  cases holder with
  | rx =>
      rw [Function.update_self]
      simp only [initRx, field, Socket.initRx]
      split_ifs <;> rfl
  | tx => rfl
  | client slot =>
      rw [Function.update_of_ne (by simp)]
      simp only [initRx, field, Socket.initRx]
      split_ifs <;> rfl

theorem Kept.held_initRx (h : s.Kept) {packageSize : ℤ} {callback : Bool} {results : InitResults}
    (hfree : results.socket = -1 ∨ Free s.ledger results.socket) :
    (s.initRx packageSize callback results).ledger.Held
        (s.initRx packageSize callback results).field ↔ s.sock.rxSocketDesc = -1 := by
  rw [field_initRx]
  refine (Ledger.held_acquireUnless (h.free hfree)).trans
    ⟨fun hheld => ?_, fun hrx => ⟨h.held, h.no_rx hrx⟩⟩
  by_contra hrx
  exact hheld.2 _ (h.rx_open hrx)

theorem Kept.initRx (h : s.Kept) {packageSize : ℤ} {callback : Bool} {results : InitResults}
    (hlive : s.destroyed = false)
    (hfree : results.socket = -1 ∨ Free s.ledger results.socket)
    (hrx : s.sock.rxSocketDesc = -1) : (s.initRx packageSize callback results).Kept where
  held := (h.held_initRx hfree).mpr hrx
  rightful := Ledger.rightful_acquireUnless.mpr h.rightful
  established := by
    intro hflag
    exact Ledger.holder_acquireUnless_of_holder (h.free hfree) (h.established hflag)
  all_closed := by
    intro hdestroyed
    exact absurd hdestroyed (by simp [Descriptors.initRx, hlive])
  no_descriptor := fun _ _ hholder => h.no_descriptor_acquired hfree hholder
  rx_open := by
    have hfield : (s.initRx packageSize callback results).sock.rxSocketDesc = results.socket :=
      (congrFun (field_initRx packageSize callback results) .rx).trans (Function.update_self ..)
    rw [hfield]
    intro hdesc
    exact Ledger.holder_acquireUnless_self hdesc
  tx_established := by
    intro desc hholder
    rcases Ledger.holder_acquireUnless_cases hholder with ⟨-, hrx, -⟩ | hold
    · cases hrx
    · exact h.tx_established desc hold

theorem field_accept (conn : Connection) (slot : Fin maxClients) :
    (s.accept conn slot).field = Function.update s.field (.client slot) conn.desc := by
  funext holder
  cases holder with
  | rx | tx => rfl
  | client slot' =>
      by_cases hsame : slot' = slot
      · subst hsame
        simp only [Descriptors.accept, field, Function.update_self, acceptClient]
        split <;> rfl
      · have hne : Holder.client slot' ≠ .client slot := fun heq => hsame (Holder.client.inj heq)
        simp only [Descriptors.accept, field, Function.update_of_ne hsame,
          Function.update_of_ne hne]

theorem held_accept {conn : Connection} {slot : Fin maxClients} (hfree : Free s.ledger conn.desc) :
    (s.accept conn slot).ledger.Held (s.accept conn slot).field ↔
      s.ledger.Held s.field ∧ ∀ desc, s.ledger.holder desc ≠ some (.client slot) := by
  rw [field_accept]
  exact Ledger.held_acquireUnless hfree.2

theorem Kept.accept (h : s.Kept) {conn : Connection} {slot : Fin maxClients}
    (hlive : s.destroyed = false) (hfree : Free s.ledger conn.desc)
    (hnone : ∀ desc, s.ledger.holder desc ≠ some (.client slot)) :
    (s.accept conn slot).Kept where
  held := (held_accept hfree).mpr ⟨h.held, hnone⟩
  rightful := Ledger.rightful_acquireUnless.mpr h.rightful
  established := fun hflag => Ledger.holder_acquireUnless_of_holder hfree.2 (h.established hflag)
  all_closed := by
    intro hdestroyed
    exact absurd hdestroyed (by simp [Descriptors.accept, hlive])
  no_descriptor := fun _ _ hholder => h.no_descriptor_acquired (.inr hfree) hholder
  rx_open := fun hrx => Ledger.holder_acquireUnless_of_holder hfree.2 (h.rx_open hrx)
  tx_established := by
    intro desc hholder
    rcases Ledger.holder_acquireUnless_cases hholder with ⟨-, htx, -⟩ | hold
    · cases htx
    · exact h.tx_established desc hold

/-! ## A pass of `TxReconnect` and `DestroyTx` -/

theorem field_half (half : TxHalf) (ledger : Ledger ℤ Holder Direction) :
    ({ s with half := half, ledger := ledger } : Descriptors).field =
      Function.update s.field .tx half.txSocketDesc := by
  funext holder
  cases holder with
  | tx => rw [Function.update_self]; rfl
  | rx => rw [Function.update_of_ne (by simp)]; rfl
  | client slot => rw [Function.update_of_ne (by simp)]; rfl

/-- A pass that connects. -/
theorem Kept.connectTx (h : s.Kept) {desc : ℤ} (hlive : s.destroyed = false)
    (hflag : s.half.txIsConnected = false) (hfree : Free s.ledger desc) :
    ({ s with half := { txSocketDesc := desc, txIsConnected := true },
              ledger := s.ledger.acquireUnless (-1) desc .tx } : Descriptors).Kept where
  held := by
    rw [field_half]
    exact (Ledger.held_acquireUnless hfree.2).mpr ⟨h.held, h.no_tx (.inr hflag)⟩
  rightful := Ledger.rightful_acquireUnless.mpr h.rightful
  established := fun _ =>
    Ledger.holder_acquireUnless_self (show desc ≠ -1 by have := hfree.1; omega)
  all_closed := by
    intro hdestroyed
    exact absurd hdestroyed (by simp [hlive])
  no_descriptor := fun _ _ hholder => h.no_descriptor_acquired (.inr hfree) hholder
  rx_open := fun hrx => Ledger.holder_acquireUnless_of_holder hfree.2 (h.rx_open hrx)
  tx_established := fun _ _ => rfl

/-- Clearing the flag and leaving any number in the field, while the sending half holds nothing. -/
theorem Kept.clearTx (h : s.Kept) (left : ℤ)
    (hnone : ∀ desc, s.ledger.holder desc ≠ some .tx) :
    ({ s with half := { txSocketDesc := left, txIsConnected := false } } : Descriptors).Kept where
  held := by
    have hheld : s.ledger.Held (Function.update s.field .tx left) := h.held.update hnone
    rwa [← field_half { txSocketDesc := left, txIsConnected := false } s.ledger] at hheld
  rightful := h.rightful
  established := by
    intro hflag
    cases hflag
  all_closed := h.all_closed
  no_descriptor := h.no_descriptor
  rx_open := h.rx_open
  tx_established := fun desc hholder => absurd hholder (hnone desc)

theorem Kept.no_tx_released (h : s.Kept) {desc : ℤ} (hholder : s.ledger.holder desc = some .tx)
    (desc' : ℤ) : (s.ledger.release .tx desc).holder desc' ≠ some .tx := by
  intro hholder'
  obtain ⟨hne, hholder'⟩ := Ledger.holder_release_eq_some.mp hholder'
  exact hne ((h.tx_eq hholder').symm.trans (h.tx_eq hholder))

/-- Closing the connection. -/
theorem Kept.closeTx (h : s.Kept) {desc : ℤ} (left : ℤ) (hlive : s.destroyed = false)
    (hholder : s.ledger.holder desc = some .tx) :
    ({ s with half := { txSocketDesc := left, txIsConnected := false },
              ledger := s.ledger.release .tx desc } : Descriptors).Kept where
  held := by
    rw [field_half]
    exact h.held.release.update (h.no_tx_released hholder)
  rightful := Ledger.rightful_release.mpr ⟨h.rightful, .tx, hholder, rfl⟩
  established := by
    intro hflag
    cases hflag
  all_closed := by
    intro hdestroyed
    exact absurd hdestroyed (by simp [hlive])
  no_descriptor := by
    intro desc' holder hholder'
    exact h.no_descriptor desc' holder (Ledger.holder_release_eq_some.mp hholder').2
  rx_open := by
    intro hrx
    have hopen := h.rx_open hrx
    refine Ledger.holder_release_eq_some.mpr ⟨?_, hopen⟩
    intro hsame
    rw [hsame, hholder] at hopen
    cases hopen
  tx_established := fun desc' hholder' => absurd hholder' (h.no_tx_released hholder desc')

/-- Any pass is in order. -/
theorem Kept.reconnectPass (h : s.Kept) {results : TxHalf.ReconnectResults}
    (hlive : s.destroyed = false)
    (hsocket : s.half.txIsConnected = false →
      Free s.ledger results.socket ∨ results.socket = -1 ∧ results.connects = false) :
    (s.reconnectPass results).Kept := by
  cases hflag : s.half.txIsConnected with
  | true =>
      have hholder := h.established hflag
      have hdesc : s.half.txSocketDesc ≠ -1 := by
        have := h.no_descriptor _ _ hholder
        omega
      cases hlost : results.lost with
      | true =>
          have hpass : s.reconnectPass results =
              { s with half := { txSocketDesc := s.half.txSocketDesc, txIsConnected := false },
                       ledger := s.ledger.release .tx s.half.txSocketDesc } := by
            simp [Descriptors.reconnectPass, TxHalf.reconnectPass, hflag, hlost, hdesc]
          rw [hpass]
          exact h.closeTx _ hlive hholder
      | false =>
          have hpass : s.reconnectPass results = s := by
            simp [Descriptors.reconnectPass, TxHalf.reconnectPass, hflag, hlost]
          rw [hpass]
          exact h
  | false =>
      rcases hsocket hflag with hfree | ⟨hfail, hrefused⟩
      · have hdesc : results.socket ≠ -1 := by
          have := hfree.1
          omega
        have hconnected := h.connectTx hlive hflag hfree
        cases hconnects : results.connects with
        | true =>
            have hpass : s.reconnectPass results =
                { s with half := { txSocketDesc := results.socket, txIsConnected := true },
                         ledger := s.ledger.acquireUnless (-1) results.socket .tx } := by
              simp [Descriptors.reconnectPass, TxHalf.reconnectPass, hflag, hconnects]
            rw [hpass]
            exact hconnected
        | false =>
            -- closed at once, as a connection would be
            have hpass : s.reconnectPass results =
                { s with half := { txSocketDesc := results.socket, txIsConnected := false },
                         ledger := (s.ledger.acquireUnless (-1) results.socket .tx).release .tx
                           results.socket } := by
              simp [Descriptors.reconnectPass, TxHalf.reconnectPass, hflag, hconnects, hdesc]
            rw [hpass]
            exact hconnected.closeTx _ hlive (Ledger.holder_acquireUnless_self hdesc)
      · have hpass : s.reconnectPass results =
            { s with half := { txSocketDesc := results.socket, txIsConnected := false } } := by
          simp [Descriptors.reconnectPass, TxHalf.reconnectPass, hflag, hfail, hrefused,
            Ledger.acquireUnless]
        rw [hpass]
        exact h.clearTx _ (h.no_tx (.inr hflag))

/-- `DestroyTx` closes the connection, or finds no descriptor. -/
theorem Kept.destroyTx (h : s.Kept) (hlive : s.destroyed = false)
    (htx : s.half.txSocketDesc = -1 ∨ s.half.txIsConnected = true) : s.destroyTx.Kept := by
  by_cases hdesc : s.half.txSocketDesc = -1
  · have hdestroy : s.destroyTx =
        { s with half := { txSocketDesc := -1, txIsConnected := false } } := by
      simp [Descriptors.destroyTx, TxHalf.destroyTx, hdesc]
    rw [hdestroy]
    exact h.clearTx _ (h.no_tx (.inl hdesc))
  · have hdestroy : s.destroyTx =
        { s with half := { txSocketDesc := -1, txIsConnected := false },
                 ledger := s.ledger.release .tx s.half.txSocketDesc } := by
      simp [Descriptors.destroyTx, TxHalf.destroyTx, hdesc]
    rw [hdestroy]
    exact h.closeTx _ hlive (h.established (htx.resolve_left hdesc))

/-- A `close` of the sending half finds a descriptor of its own only while the flag is set. -/
theorem Kept.of_rightful_destroyTx (h : s.Kept)
    (hrightful : s.destroyTx.ledger.Rightful Holder.direction) :
    s.half.txSocketDesc = -1 ∨ s.half.txIsConnected = true := by
  refine or_iff_not_imp_left.mpr fun hdesc => ?_
  have hledger : s.destroyTx.ledger = s.ledger.release .tx s.half.txSocketDesc := by
    simp [Descriptors.destroyTx, TxHalf.destroyTx, hdesc]
  rw [hledger, Ledger.rightful_release] at hrightful
  obtain ⟨-, holder, hholder, hdirection⟩ := hrightful
  cases holder with
  | tx => exact h.tx_established _ hholder
  | rx | client slot => cases hdirection

/-! ## `DestroyRx` -/

theorem destroyRx_of_none (hrx : s.sock.rxSocketDesc = -1) : s.destroyRx.ledger = s.ledger := by
  simp [Descriptors.destroyRx, Socket.destroyRx, hrx]

theorem destroyRx_of_open (hrx : s.sock.rxSocketDesc ≠ -1)
    (hsame : s.sock.rxSocketDesc = s.half.txSocketDesc) :
    s.destroyRx.ledger = s.ledger.release .rx s.sock.rxSocketDesc := by
  rw [hsame] at hrx
  simp [Descriptors.destroyRx, Socket.destroyRx, hrx, hsame]

/-- What the receiving half holds survives a `DestroyRx` that closes something else. -/
theorem holder_destroyRx {desc : ℤ} {holder : Holder} (hholder : s.ledger.holder desc = some holder)
    (hne : s.sock.rxSocketDesc = -1 ∨ desc ≠ s.half.txSocketDesc) :
    s.destroyRx.ledger.holder desc = some holder := by
  by_cases hrx : s.sock.rxSocketDesc = -1
  · rw [destroyRx_of_none hrx]
    exact hholder
  · by_cases htx : s.half.txSocketDesc = -1
    · simpa [Descriptors.destroyRx, Socket.destroyRx, hrx, htx] using hholder
    · have hledger : s.destroyRx.ledger = s.ledger.release .rx s.half.txSocketDesc := by
        simp [Descriptors.destroyRx, Socket.destroyRx, hrx, htx]
      rw [hledger, Ledger.holder_release_eq_some]
      exact ⟨hne.resolve_left hrx, hholder⟩

/-- What is in use after a `DestroyRx` that closes its own descriptor, if there is one. -/
theorem Kept.holder_of_destroyRx (h : s.Kept)
    (hrx : s.sock.rxSocketDesc = -1 ∨ s.sock.rxSocketDesc = s.half.txSocketDesc) {desc : ℤ}
    {holder : Holder} (hholder : s.destroyRx.ledger.holder desc = some holder) :
    s.ledger.holder desc = some holder ∧ holder ≠ .rx := by
  by_cases hnone : s.sock.rxSocketDesc = -1
  · rw [destroyRx_of_none hnone] at hholder
    refine ⟨hholder, ?_⟩
    rintro rfl
    exact h.no_rx hnone desc hholder
  · rw [destroyRx_of_open hnone (hrx.resolve_left hnone),
      Ledger.holder_release_eq_some] at hholder
    refine ⟨hholder.2, ?_⟩
    rintro rfl
    exact hholder.1 (h.rx_eq hholder.2).symm

theorem Kept.rightful_destroyRx (h : s.Kept)
    (hrx : s.sock.rxSocketDesc = -1 ∨ s.sock.rxSocketDesc = s.half.txSocketDesc) :
    s.destroyRx.ledger.Rightful Holder.direction := by
  by_cases hnone : s.sock.rxSocketDesc = -1
  · rw [destroyRx_of_none hnone]
    exact h.rightful
  · rw [destroyRx_of_open hnone (hrx.resolve_left hnone), Ledger.rightful_release]
    exact ⟨h.rightful, .rx, h.rx_open hnone, rfl⟩

theorem Kept.destroyRx (h : s.Kept) (hlive : s.destroyed = false)
    (hrx : s.sock.rxSocketDesc = -1 ∨ s.sock.rxSocketDesc = s.half.txSocketDesc)
    (hclients : ∀ desc slot, s.ledger.holder desc = some (.client slot) → desc = 0) :
    s.destroyRx.Kept where
  held := by
    intro desc holder hholder
    obtain ⟨hholder, hne⟩ := h.holder_of_destroyRx hrx hholder
    cases holder with
    | rx => exact absurd rfl hne
    | tx => exact h.tx_eq hholder
    | client slot => exact (hclients desc slot hholder).symm
  rightful := h.rightful_destroyRx hrx
  established := by
    intro hflag
    have hholder := h.established hflag
    refine holder_destroyRx hholder (or_iff_not_imp_left.mpr fun hopen => ?_)
    -- the two fields would hold one number, which both halves hold
    rw [← hrx.resolve_left hopen, h.rx_open hopen] at hholder
    cases hholder
  all_closed := by
    intro hdestroyed
    exact absurd hdestroyed (by simp [Descriptors.destroyRx, hlive])
  no_descriptor := by
    intro desc holder hholder
    exact h.no_descriptor desc holder (h.holder_of_destroyRx hrx hholder).1
  rx_open := fun hne => absurd rfl hne
  tx_established := by
    intro desc hholder
    exact h.tx_established desc (h.holder_of_destroyRx hrx hholder).1

/-- `DestroyRx` sets `rx_socket_desc` to `-1`, so the accounts need its descriptor closed. -/
theorem Kept.of_held_destroyRx (h : s.Kept) (hheld : s.destroyRx.ledger.Held s.destroyRx.field) :
    (s.sock.rxSocketDesc = -1 ∨ s.sock.rxSocketDesc = s.half.txSocketDesc) ∧
      ∀ desc slot, s.ledger.holder desc = some (.client slot) → desc = 0 := by
  have hrx : s.sock.rxSocketDesc = -1 ∨ s.sock.rxSocketDesc = s.half.txSocketDesc := by
    by_contra hnot
    obtain ⟨hrx, hne⟩ := not_or.mp hnot
    have hheld := hheld _ .rx (holder_destroyRx (h.rx_open hrx) (.inr hne))
    exact hrx hheld.symm
  refine ⟨hrx, fun desc slot hholder => ?_⟩
  have hkept : s.destroyRx.ledger.holder desc = some (.client slot) := by
    refine holder_destroyRx hholder (or_iff_not_imp_left.mpr fun hopen => ?_)
    rw [← hrx.resolve_left hopen]
    rintro rfl
    rw [h.rx_open hopen] at hholder
    cases hholder
  exact (hheld desc _ hkept).symm

/-! ## The destructor -/

theorem holder_destroyTx {desc : ℤ} {holder : Holder} :
    s.destroyTx.ledger.holder desc = some holder ↔
      (s.half.txSocketDesc = -1 ∨ desc ≠ s.half.txSocketDesc) ∧
        s.ledger.holder desc = some holder := by
  by_cases htx : s.half.txSocketDesc = -1
  · simp [Descriptors.destroyTx, TxHalf.destroyTx, htx]
  · have hledger : s.destroyTx.ledger = s.ledger.release .tx s.half.txSocketDesc := by
      simp [Descriptors.destroyTx, TxHalf.destroyTx, htx]
    rw [hledger, Ledger.holder_release_eq_some, or_iff_right htx]

/-- After `DestroyTx` there is no descriptor left that `DestroyRx` would close. -/
theorem ledger_destruct : s.destroyTx.destroyRx.ledger = s.destroyTx.ledger := by
  have htx : s.destroyTx.half.txSocketDesc = -1 := rfl
  by_cases hrx : s.destroyTx.sock.rxSocketDesc = -1
  · exact destroyRx_of_none hrx
  · simp [Descriptors.destroyRx, Socket.destroyRx, hrx, htx]

theorem Kept.destruct (h : s.Kept) (hlive : s.destroyed = false)
    (htx : s.half.txSocketDesc = -1 ∨ s.half.txIsConnected = true)
    (hrx : s.sock.rxSocketDesc = -1)
    (hclients : ∀ desc slot, s.ledger.holder desc ≠ some (.client slot)) :
    ({ s.destroyTx.destroyRx with destroyed := true } : Descriptors).Kept := by
  have hm : s.destroyTx.Kept := h.destroyTx hlive htx
  have hnone : ∀ desc, s.destroyTx.ledger.holder desc = none := by
    intro desc
    cases hholder : s.destroyTx.ledger.holder desc with
    | none => rfl
    | some holder =>
        cases holder with
        | rx => exact absurd hholder (hm.no_rx hrx desc)
        | tx => exact absurd hholder (hm.no_tx (.inl rfl) desc)
        | client slot => exact absurd (holder_destroyTx.mp hholder).2 (hclients desc slot)
  have ht : s.destroyTx.destroyRx.Kept := by
    refine hm.destroyRx hlive (.inl hrx) fun desc slot hholder => ?_
    rw [hnone desc] at hholder
    cases hholder
  exact { held := ht.held, rightful := ht.rightful, established := ht.established,
          all_closed := fun _ desc => (congrArg (fun ledger => ledger.holder desc)
            ledger_destruct).trans (hnone desc)
          no_descriptor := ht.no_descriptor, rx_open := ht.rx_open,
          tx_established := ht.tx_established }

theorem Kept.of_destruct (h : s.Kept) (hlive : s.destroyed = false)
    (haccounted : ({ s.destroyTx.destroyRx with destroyed := true } : Descriptors).Accounted) :
    (s.half.txSocketDesc = -1 ∨ s.half.txIsConnected = true) ∧ s.sock.rxSocketDesc = -1 ∧
      ∀ desc slot, s.ledger.holder desc ≠ some (.client slot) := by
  have hnone : ∀ desc, s.destroyTx.ledger.holder desc = none := by
    intro desc
    rw [← ledger_destruct]
    exact haccounted.all_closed rfl desc
  have htx : s.half.txSocketDesc = -1 ∨ s.half.txIsConnected = true := by
    refine h.of_rightful_destroyTx ?_
    rw [← ledger_destruct]
    exact haccounted.rightful
  have hm : s.destroyTx.Kept := h.destroyTx hlive htx
  refine ⟨htx, ?_, fun desc slot hholder => ?_⟩
  · by_contra hrx
    have hopen := hm.rx_open hrx
    rw [hnone] at hopen
    cases hopen
  · have hsame : ¬ (s.half.txSocketDesc = -1 ∨ desc ≠ s.half.txSocketDesc) := by
      intro hne
      have hkept := holder_destroyTx.mpr ⟨hne, hholder⟩
      rw [hnone] at hkept
      cases hkept
    obtain ⟨hdesc, hsame⟩ := not_or.mp hsame
    rw [not_not.mp hsame, h.established (htx.resolve_left hdesc)] at hholder
    cases hholder

/-! ## Runs -/

/-- What an operation does. -/
inductive Stepped (s : Descriptors) : DescEvent → Descriptors → Prop
  | initRx {packageSize : ℤ} {callback : Bool} {results : InitResults}
      (hfree : results.socket = -1 ∨ Free s.ledger results.socket) :
      Stepped s (.initRx packageSize callback results) (s.initRx packageSize callback results)
  | accept {conn : Connection} {slot : Fin maxClients} (hfree : Free s.ledger conn.desc)
      (hslot : s.sock.freeSlot = some slot) : Stepped s (.accept conn) (s.accept conn slot)
  | initTx : Stepped s .initTx { s with reconnecting := true }
  | reconnectPass {results : TxHalf.ReconnectResults}
      (hsocket : s.half.txIsConnected = false →
        Free s.ledger results.socket ∨ results.socket = -1 ∧ results.connects = false) :
      Stepped s (.reconnectPass results) (s.reconnectPass results)
  | destroyRx : Stepped s .destroyRx s.destroyRx
  | destroyTx : Stepped s .destroyTx s.destroyTx
  | destruct : Stepped s .destruct { s.destroyTx.destroyRx with destroyed := true }

theorem next_cases {event : DescEvent} (hstep : s.next event = some s') :
    s.destroyed = false ∧ Stepped s event s' := by
  unfold next at hstep
  split at hstep
  · cases hstep
  next hlive =>
  refine ⟨by simpa using hlive, ?_⟩
  cases event with
  | initRx packageSize callback results =>
      dsimp only at hstep
      split_ifs at hstep with hfree
      obtain rfl := Option.some.inj hstep
      exact .initRx hfree
  | accept conn =>
      dsimp only at hstep
      split_ifs at hstep with hready
      obtain ⟨slot, hslot, rfl⟩ := Option.map_eq_some_iff.mp hstep
      exact .accept hready.2.2 hslot
  | reconnectPass results =>
      dsimp only at hstep
      split_ifs at hstep with hready
      obtain rfl := Option.some.inj hstep
      exact .reconnectPass hready.2
  | initTx =>
      obtain rfl := Option.some.inj hstep
      exact .initTx
  | destroyRx =>
      obtain rfl := Option.some.inj hstep
      exact .destroyRx
  | destroyTx =>
      obtain rfl := Option.some.inj hstep
      exact .destroyTx
  | destruct =>
      obtain rfl := Option.some.inj hstep
      exact .destruct

theorem Kept.step {event : DescEvent} (h : s.Kept) (hstep : s.next event = some s')
    (hkeeps : s.KeepsAccounts event) : s'.Kept := by
  obtain ⟨hlive, hstepped⟩ := next_cases hstep
  cases hstepped with
  | initRx hfree => exact h.initRx hlive hfree hkeeps
  | accept hfree hslot => exact h.accept hlive hfree (hkeeps _ hslot)
  | initTx =>
      exact { held := h.held, rightful := h.rightful, established := h.established,
              all_closed := h.all_closed, no_descriptor := h.no_descriptor, rx_open := h.rx_open,
              tx_established := h.tx_established }
  | reconnectPass hsocket => exact h.reconnectPass hlive hsocket
  | destroyRx => exact h.destroyRx hlive hkeeps.1 hkeeps.2
  | destroyTx => exact h.destroyTx hlive hkeeps
  | destruct => exact h.destruct hlive hkeeps.1 hkeeps.2.1 hkeeps.2.2

theorem Kept.keepsAccounts {event : DescEvent} (h : s.Kept) (hstep : s.next event = some s')
    (haccounted : s'.Accounted) : s.KeepsAccounts event := by
  obtain ⟨hlive, hstepped⟩ := next_cases hstep
  cases hstepped with
  | initRx hfree => exact (h.held_initRx hfree).mp haccounted.held
  | accept hfree hslot =>
      intro slot hslot'
      obtain rfl := Option.some.inj (hslot.symm.trans hslot')
      exact ((held_accept hfree).mp haccounted.held).2
  | initTx | reconnectPass _ => trivial
  | destroyRx => exact h.of_held_destroyRx haccounted.held
  | destroyTx => exact h.of_rightful_destroyTx haccounted.rightful
  | destruct => exact h.of_destruct hlive haccounted

theorem start_kept (packageSize : ℤ) (clientList : Fin maxClients → Client) :
    (start packageSize clientList).Kept where
  held := Ledger.held_empty _
  rightful := Ledger.rightful_empty _
  established := by
    intro hflag
    cases hflag
  all_closed := by
    intro hdestroyed
    cases hdestroyed
  no_descriptor := by
    intro desc holder hholder
    cases hholder
  rx_open := fun hne => absurd rfl hne
  tx_established := by
    intro desc hholder
    cases hholder

/-- **Descriptor accounting.**  In a run of operations on a new object the accounts are in order
after every operation exactly if every operation finds what it needs. -/
theorem accounting_iff (packageSize : ℤ) (clientList : Fin maxClients → Client)
    (events : List DescEvent) :
    EveryStep (StepOf next) (fun _ _ t => t.Accounted) (start packageSize clientList) events ↔
      EveryStep (StepOf next) (fun s event _ => s.KeepsAccounts event)
        (start packageSize clientList) events := by
  apply everyStep_iff_of_invariant Kept
  · intro s event t h hkeeps hstep
    exact h.step hstep hkeeps
  · intro s event t h hstep
    exact ⟨h.keepsAccounts hstep, fun hkeeps => (h.step hstep hkeeps).toAccounted⟩
  · exact start_kept packageSize clientList

/-- `DestroyRx` after `InitRx` and with an established connection: it closes the descriptor of the
connection, and its own is lost. -/
theorem not_accounted_destroyRx :
    ∃ s, Run (StepOf next) (start 2 fun _ => .zero)
        [.initRx 2 true (.success 3), .initTx, .reconnectPass ⟨4, true, false⟩, .destroyRx] s ∧
      ¬ s.Accounted := by
  refine ⟨_, run_iff_exec.mpr rfl, fun haccounted => ?_⟩
  have hopen := haccounted.established rfl
  exact absurd hopen (by decide)

end Descriptors

end XbeeAssignment.Socket
