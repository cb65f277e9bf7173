import TokenKeeper.Client.Run
/-!
# Several clients

The clients of one program take turns in any order. They share the metrics and the log. A turn may
find another peer than the one before, so each client may have a peer of its own.
-/
namespace TokenKeeper

/-- Clients with what all of them act upon. -/
structure Fleet where
  members : List (ClientKind × Client)
  world : World
deriving DecidableEq, Repr

structure Turn where
  member : Nat
  peer : Option Http.Peer
  around : Surroundings
  operation : Operation
deriving DecidableEq, Repr

namespace Fleet

/-- The client whose turn it is, with the world as it finds it. -/
def session? (f : Fleet) (t : Turn) : Option Session :=
  (f.members[t.member]?).map fun m => ⟨m.1, m.2, { f.world with peer := t.peer.getD f.world.peer }⟩

/-- One turn. A client that is not there leaves everything as it is. -/
def step (f : Fleet) (t : Turn) : Fleet :=
  match f.session? t with
  | some s =>
    let after := (s.step t.around t.operation).2
    ⟨f.members.set t.member (after.kind, after.client), after.world⟩
  | none => f

def run (f : Fleet) (turns : List Turn) : Fleet := turns.foldl step f

end Fleet

end TokenKeeper
