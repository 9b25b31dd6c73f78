import SplitStream.Codec.Standard
import SplitStream.Command.Arguments
import SplitStream.Command.Compress
import SplitStream.Command.Decompress
import SplitStream.Command.Inspect
import SplitStream.Command.ReadBlock

/-
  This file defines the command line: arguments state a
  request, and the request is carried out in a session.  The
  engines are the standard ones where no others are given.

  Key definitions include:
    * `Request.run`
    * `Outcome`
    * `Session.run`
-/

------------------------------------------------------------
-- Command Line
------------------------------------------------------------

namespace SplitStream

/- Carry out a request. -/
def Request.run
    [Engines] : Request → Command Unit
  | .compress request => request.run
  | .decompress request => request.run
  | .index file => Command.writeIndex file
  | .inspect request => request.run
  | .readBlock request => request.run

/- How a command line ends. -/
inductive Outcome where
  | done
  | failed (failure : Failure)
  | misstated (mistake : Misstatement)
  deriving DecidableEq, Repr

/- Carry out the request that arguments state. -/
def Session.run
    [Engines]
    (session : Session)
    (environment : Environment)
    (arguments : List String) : Outcome × Session :=
  match Request.ofArguments environment arguments with
  | .error mistake => (.misstated mistake, session)
  | .ok request =>
    match request.run.perform session with
    | (.ok (), session) => (.done, session)
    | (.error failure, session) => (.failed failure, session)

end SplitStream
