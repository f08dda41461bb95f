import ControlChannel.Control.Install
import ControlChannel.Control.Round

/-!
An attempt to get a connection: a round over the candidates and the installation of what it
brings. A call to connect, the round that a trigger starts and a session all make attempts of this
one kind. Main content: `Attempt.resume`, and which connection an attempt holds (`Attempt.held?`).
-/

namespace ControlChannel

inductive Attempt where
  | fresh
  | round (round : Round)
  | installing (install : Install)

namespace Attempt

/-- Whether the connection that was brought up is the active one. -/
abbrev Result := Except Error (Awaited Bool)

/-- The connection that an attempt holds, one that it is closing included. -/
def held? : Attempt → Option Link
  | .fresh => none
  | .round r => r.bringUp.held?
  | .installing i => some i.closing

/-- Where the attempt stands after its installation went on. -/
def afterInstall : Control × Progress Install Bool → Control × Progress Attempt Result
  | (k, .running i) => (k, .running (.installing i))
  | (k, .done kept) => (k, .done (.ok (.ready kept)))

/-- Where the attempt stands after its round went on. -/
def afterRound : Control × Progress Round Round.Result → Control × Progress Attempt Result
  | (k, .running r) => (k, .running (.round r))
  | (k, .done (.ok (.ready link))) => afterInstall (Install.start k link)
  | (k, .done (.ok .cancelled)) => (k, .done (.ok .cancelled))
  | (k, .done (.error e)) => (k, .done (.error e))

/-- Goes on after a signal that fits the position. -/
def resume (k : Control) (a : Attempt) (signal : Signal) :
    Option (Control × Progress Attempt Result) :=
  match a, signal with
  | .fresh, .go => some (afterRound (Round.start k))
  | .fresh, _ => none
  | .round r, signal => (r.resume k signal).map afterRound
  | .installing i, signal => (i.resume k signal).map afterInstall

end Attempt

end ControlChannel
