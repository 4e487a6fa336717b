import Bonded.Table

/-! The server's registry of sessions: one session id for each client key. -/
namespace Bonded.SessionRegistry

/-- Registered session ids by client public key, and the id the next new client gets. -/
structure Registry where
  nextSessionId : UInt64
  sessionsByClient : Table String UInt64
  deriving DecidableEq

def new : Registry := ⟨0,∅⟩

/-- The id of a registered client, or the next id, which wraps at `2^64`. -/
def registerClient (r : Registry) (clientKey : String) : UInt64 × Registry :=
  match r.sessionsByClient.get clientKey with
  | some existing => (existing,r)
  | none => (r.nextSessionId,⟨r.nextSessionId+1,r.sessionsByClient.set clientKey r.nextSessionId⟩)

def unregisterClient (r : Registry) (clientKey : String) : Registry :=
  {r with sessionsByClient := r.sessionsByClient.remove clientKey}

def containsClient (r : Registry) (clientKey : String) : Bool :=
  r.sessionsByClient.contains clientKey

/-- After a registration the client has the returned id and every other client its old one. -/
theorem registerClient_get (r : Registry) (key key' : String) :
    (registerClient r key).2.sessionsByClient.get key' =
      if key' = key then some (registerClient r key).1 else r.sessionsByClient.get key' := by
  unfold registerClient
  split
  · next existing h =>
    by_cases hk : key' = key
    · simp [hk,h]
    · simp [hk]
  · exact Table.get_set _ _ _ _

theorem unregisterClient_get (r : Registry) (key key' : String) :
    (unregisterClient r key).sessionsByClient.get key' =
      if key' = key then none else r.sessionsByClient.get key' :=
  Table.get_remove _ _ _

end Bonded.SessionRegistry
