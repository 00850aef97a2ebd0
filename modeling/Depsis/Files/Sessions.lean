import Depsis.Files.FilesService

/-! The service's calls as sessions of one database and one disk. -/
namespace Depsis.Files

open Depsis.Foundation Depsis.Foundation.ReadCommitted Depsis.Foundation.Calls

inductive Demand where
  | createFolder (organizationId : String) (share : ShareRef) (parentId : Option String)
      (name actorId newId : String)
  | recordPublishedFile (organizationId shareId : String) (parentId : Option String) (name newId : String)
  | move (organizationId id : String) (share : ShareRef) (parentId newName : Option String) (actorId : String)
  | rename (organizationId id name : String) (share : ShareRef) (actorId : String) (allowTrashed : Bool)
  | trash (organizationId id userId : String) (share : ShareRef) (now : Nat)
  | restore (organizationId id : String)
  | restoreEndpoint (organizationId callerId id : String) (share : ShareRef)

variable {Bytes : Type}

def Demand.call : Demand → Service Bytes EntryRow
  | .createFolder organizationId share parentId name actorId newId =>
    Files.createFolder organizationId share parentId name actorId newId
  | .recordPublishedFile organizationId shareId parentId name newId =>
    Files.recordPublishedFile organizationId shareId parentId name newId
  | .move organizationId id share parentId newName actorId =>
    Files.move organizationId id share parentId newName actorId
  | .rename organizationId id name share actorId allowTrashed =>
    Files.rename organizationId id name share actorId allowTrashed
  | .trash organizationId id userId share now => Files.trash organizationId id userId share now
  | .restore organizationId id => Files.restore organizationId id
  | .restoreEndpoint organizationId callerId id share => Files.restoreEndpoint organizationId callerId id share

abbrev Ended := Except FilesError EntryRow

def meaning (fold : String → String) (uids : String → String → Option Nat) :
    Meaning (words Bytes) Key EntryRow (Disk Bytes) Demand Ended where
  execute := execute fold uids
  lost := .connectionLost
  respond := respond
  opening := fun demand => demand.call.run

end Depsis.Files
