/-!
# Gates

A gate is open until it is closed, and then stays closed. Only the close that finds it open is
answered with yes.

## Main results

* `Gate.close_fst` — a close is answered with yes exactly if the gate was open;
* `Gate.isClosed_close` — a gate that has been closed is closed.
-/

namespace PeerLink

/-- The flag that says whether a client may still be used. -/
structure Gate where
  isClosed : Bool := false
  deriving DecidableEq, Repr, Inhabited

namespace Gate

/-- Closes the gate; says whether it was open. -/
def close (g : Gate) : Bool × Gate := (!g.isClosed, ⟨true⟩)

/-- Closes the gate whatever it was. -/
def forceClose (_ : Gate) : Gate := ⟨true⟩

@[simp] theorem close_fst (g : Gate) : g.close.1 = !g.isClosed := rfl

@[simp] theorem isClosed_close (g : Gate) : g.close.2.isClosed = true := rfl

@[simp] theorem isClosed_forceClose (g : Gate) : g.forceClose.isClosed = true := rfl

end Gate

end PeerLink
