import Mathlib.Tactic.Common
import Mathlib.Data.Int.Notation

/-!
# The sending half of a `Socket`

`InitTx` starts a thread that runs `TxReconnect`, an endless loop of passes: while
the flag `tx_is_connected` is clear a pass makes a socket and tries to connect it,
and otherwise it looks whether the peer has closed the connection.  `Tx` sends on
the descriptor if the flag is set, and `DestroyTx` closes it.

Here each of them is one step, which returns the descriptors it passes to `close`
in order.  What the calls to the system return is an argument.
-/

namespace XbeeAssignment.Socket

/-- The members of the sending half. -/
structure TxHalf where
  txSocketDesc : ℤ
  /-- Whether `tx_is_connected` is set. -/
  txIsConnected : Bool

namespace TxHalf

/-- The members after the constructor. -/
def constructed : TxHalf :=
  { txSocketDesc := -1, txIsConnected := false }

/-- `Tx`: what it returns, and the bytes that `send`, which returns `sent`, accepts. -/
def tx (half : TxHalf) (package : List UInt8) (sent : ℤ) : ℤ × List UInt8 :=
  if half.txSocketDesc ≠ -1 ∧ half.txIsConnected then (sent, package.take sent.toNat)
  else (0, [])

/-- `DestroyTx`. -/
def destroyTx (half : TxHalf) : TxHalf × List ℤ :=
  ({ txSocketDesc := -1, txIsConnected := false },
    if half.txSocketDesc ≠ -1 then [half.txSocketDesc] else [])

/-- What the calls of a pass return: the descriptor or `-1`, whether `connect` succeeds, and
whether the peeking `recv` returns `0`. -/
structure ReconnectResults where
  socket : ℤ
  connects : Bool
  lost : Bool

/-- One pass of `TxReconnect`. -/
def reconnectPass (half : TxHalf) (results : ReconnectResults) : TxHalf × List ℤ :=
  if half.txIsConnected = false then
    if results.connects then ({ txSocketDesc := results.socket, txIsConnected := true }, [])
    else ({ txSocketDesc := results.socket, txIsConnected := false }, [results.socket])
  else if results.lost then ({ half with txIsConnected := false }, [half.txSocketDesc])
  else (half, [])

end TxHalf

end XbeeAssignment.Socket
