import ServerStudy.Core.Run

/-!
# The order of socket calls

What the socket library asks of a program: which call may be made of a socket
in which stage. A trace of calls is proper if each is allowed after those
before it (`Proper`).
-/

namespace ServerStudy.Core

/-- The stages of a socket. -/
inductive Stage
  | created
  | bound
  | listening
  | connected
  | closed
  deriving DecidableEq, Repr

/-- A call, with its success where that matters. Sockets are numbered as they
are made; `none` is an invalid one. -/
inductive SockCall
  | startup (ok : Bool)
  | cleanup
  | socket (ok : Bool)
  | bind (sock : Option Nat) (ok : Bool)
  | listen (sock : Option Nat) (ok : Bool)
  | accept (sock : Option Nat) (ok : Bool)
  | recv (sock : Option Nat)
  | send (sock : Option Nat)
  | close (sock : Option Nat)
  deriving DecidableEq, Repr

/-- The library and the sockets made so far. -/
structure Net where
  started : Bool
  stages : List Stage
  deriving DecidableEq, Repr

namespace Net

def new : Net := ⟨false, []⟩

/-- The socket is in that stage. -/
def Is (net : Net) (sock : Option Nat) (stage : Stage) : Prop :=
  net.started = true ∧ ∃ i, sock = some i ∧ net.stages[i]? = some stage

/-- The call may be made. -/
def Allows (net : Net) : SockCall → Prop
  | .startup _ => net.started = false
  | .cleanup => net.started = true
  | .socket _ => net.started = true
  | .bind sock _ => net.Is sock .created
  | .listen sock _ => net.Is sock .bound
  | .accept sock _ => net.Is sock .listening
  | .recv sock => net.Is sock .connected
  | .send sock => net.Is sock .connected
  | .close sock => ∃ stage, stage ≠ .closed ∧ net.Is sock stage

/-- A socket in its next stage. -/
def move (net : Net) (sock : Option Nat) (stage : Stage) : Net :=
  match sock with
  | none => net
  | some i => { net with stages := net.stages.set i stage }

/-- A new socket, if it could be made. -/
def make (net : Net) (ok : Bool) (stage : Stage) : Net :=
  if ok then { net with stages := net.stages ++ [stage] } else net

/-- After the call. -/
def after (net : Net) : SockCall → Net
  | .startup ok => { net with started := ok }
  | .cleanup => { net with started := false }
  | .socket ok => net.make ok .created
  | .bind sock ok => if ok then net.move sock .bound else net
  | .listen sock ok => if ok then net.move sock .listening else net
  | .accept _ ok => net.make ok .connected
  | .recv _ => net
  | .send _ => net
  | .close sock => net.move sock .closed

/-- After some calls. -/
def afterAll (calls : List SockCall) : Net := run after new calls

/-- Every call is allowed after those before it. -/
def Proper (calls : List SockCall) : Prop := Along after Allows new calls

theorem afterAll_append (calls more : List SockCall) :
    afterAll (calls ++ more) = run after (afterAll calls) more := run_append ..

theorem proper_append {calls more : List SockCall} :
    Proper (calls ++ more) ↔ Proper calls ∧ Along after Allows (afterAll calls) more :=
  Along.append

theorem proper_concat {calls : List SockCall} {call : SockCall} (h : Proper calls)
    (hcall : (afterAll calls).Allows call) : Proper (calls ++ [call]) :=
  proper_append.mpr ⟨h, hcall, trivial⟩

/-- Calls that leave a connection as it is. -/
theorem proper_sends {net : Net} {sock : Option Nat} (h : net.Is sock .connected) (n : Nat) :
    Along after Allows net (List.replicate n (.send sock)) ∧
      run after net (List.replicate n (.send sock)) = net := by
  induction n with
  | zero => exact ⟨trivial, rfl⟩
  | succ n ih => exact ⟨⟨h, ih.1⟩, ih.2⟩

end Net

end ServerStudy.Core
