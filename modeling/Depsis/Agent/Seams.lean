import Mathlib.Data.List.Basic

/-! What the agent's seams to the machine answer when they refuse. -/
namespace Depsis.Agent

inductive SeamError where
  | noPeerCred (detail : String)
  | pathEscape (detail : String)
  | notFound (detail : String)
  | notADirectory (detail : String)
  | alreadyExists (detail : String)
  | notEmpty (detail : String)
  | io (detail : String)
  | command (program : String) (status : Int) (stderr : String)

def SeamError.message : SeamError → String
  | .noPeerCred detail => "peer credentials unavailable: " ++ detail
  | .pathEscape detail => "path escapes the share root: " ++ detail
  | .notFound detail => "no such file: " ++ detail
  | .notADirectory detail => "not a directory: " ++ detail
  | .alreadyExists detail => "already exists: " ++ detail
  | .notEmpty detail => "directory is not empty: " ++ detail
  | .io detail => "io: " ++ detail
  | .command program status stderr =>
    "command " ++ program ++ " failed with status " ++ toString status ++ ": " ++ stderr

end Depsis.Agent
