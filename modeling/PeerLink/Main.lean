import PeerLink.Log.Line
import PeerLink.Log.Time
import PeerLink.Node.Listener
import PeerLink.Node.Sender
import PeerLink.Node.Start
import Std.Time.Zoned

/-!
# The command line

Starts a node with the arguments, the environment and the settings file that the process finds,
and prints what the node has to say. The process opens no sockets: its network is that of a
machine that is connected to nothing, so nobody can be reached, and a listening node waits until
its standard input ends.
-/

namespace PeerLink.Node

/-- The variables of the environment that override settings. -/
def findVariables : IO Settings.Environment := do
  return {
    nodeId := ← IO.getEnv "COMM_NODE_ID"
    listen := ← IO.getEnv "COMM_LISTEN_ADDR"
    idleTimeoutMs := ← IO.getEnv "COMM_IDLE_TIMEOUT_MS"
    maxFrameSize := ← IO.getEnv "COMM_MAX_FRAME_SIZE" }

/-- The text of a file, if there is one and it is text. -/
def findText (path : String) : IO (Option String) := do
  try
    return some (← IO.FS.readFile path)
  catch _ =>
    return none

/-- What the process finds around it. -/
def findSurroundings (arguments : List String) : IO Surroundings := do
  let path := match Request.ofArguments arguments with
    | .ok (.run a) => some a.config
    | _ => none
  let text ← match path with
    | none => pure none
    | some path => findText path
  return {
    arguments := arguments
    overrides := ← findVariables
    fileText := fun p => if some p == path then text else none
    understand := fun text => (Settings.parse text).mapError Settings.FileFault.message
    network := .isolated }

/-- Prints entries of the log. -/
def printLog (format : Log.LineFormat) (entries : List LogEntry) : IO Unit := do
  for e in entries do
    let now ← Std.Time.PlainDateTime.now
    IO.print (format.line (Log.timeText now) (Log.Record.ofEntry e))

/-- Reads standard input to its end. -/
partial def awaitEnd (input : IO.FS.Stream) : IO Unit := do
  unless (← input.getLine).isEmpty do
    awaitEnd input

end PeerLink.Node

open PeerLink in
/-- Runs a node and gives its exit status. -/
def main (arguments : List String) : IO UInt32 := do
  let format := Log.LineFormat.forTerminal "comm" (← IO.getEnv "TERM")
  let node := Node.start (← Node.findSurroundings arguments)
  Node.printLog format node.shown
  match node.course with
  | .ended exit output complaint =>
    for line in output do
      IO.println line
    if let some text := complaint then
      IO.eprintln text
    return UInt32.ofNat exit
  | .connected _ => return 0
  | .listening _ =>
    Node.awaitEnd (← IO.getStdin)
    let last : LogEntry := { level := .info, message := "Shutting down" }
    Node.printLog format ([last].filter fun e => node.filter.shows e.level)
    return 0
