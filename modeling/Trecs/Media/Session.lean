import Mathlib.Data.List.AList
import Trecs.Lib.Bytes

/-!
# Media Sessions

The table of media sessions of `internal/media/session.go`. A session is known by
the dialog it belongs to. The sockets, addresses and contexts of a session are
left out.

## Main definitions

* `SessionKey`, `Session`: A session and its key.
* `SessionManager.add`, `SessionManager.remove`: The operations on the table.
-/

namespace Trecs

namespace Media

/-- The Go struct `SessionKey`. -/
structure SessionKey where
  callID : Bytes
  localTag : Bytes
  remoteTag : Bytes
deriving Repr, DecidableEq

/-- The progress of the offer and the answer. -/
inductive SessionState where
  | SessionCreated
  | SessionWaitingAck
  | SessionActive
deriving Repr, DecidableEq

/-- What a session does with the media it gets. -/
inductive SessionKind where
  | SessionKindEcho
  | SessionKindPlay
deriving Repr, DecidableEq

/-- A session. -/
structure Session where
  key : SessionKey
  kind : SessionKind
  state : SessionState
deriving Repr, DecidableEq

/-- The Go struct `SessionManager`. -/
structure SessionManager where
  sessions : AList (fun _ : SessionKey => Session)

namespace SessionManager

/-- `Add`. -/
def add (sm : SessionManager) (s : Session) : SessionManager := ⟨sm.sessions.insert s.key s⟩

/-- `Get`. -/
def get (sm : SessionManager) (key : SessionKey) : Option Session := sm.sessions.lookup key

/-- `Remove`. -/
def remove (sm : SessionManager) (key : SessionKey) : SessionManager := ⟨sm.sessions.erase key⟩

end SessionManager

end Media

end Trecs
