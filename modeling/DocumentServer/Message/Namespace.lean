import DocumentServer.Message.Error

namespace DocumentServer

def commandCollection : String := "$cmd"

def adminDatabase : String := "admin"

structure Namespace where
  database : String
  collection : String
  deriving DecidableEq

namespace Namespace

def command (database : String) : Namespace := ⟨database, commandCollection⟩

def isCommand (n : Namespace) : Bool := n.collection = commandCollection

def display (n : Namespace) : String := n.database ++ "." ++ n.collection

def splitDot : List Char → Option (List Char × List Char)
  | [] => none
  | '.' :: cs => some ([], cs)
  | c :: cs => (splitDot cs).map fun p => (c :: p.1, p.2)

/-- Splits a name at its first dot; both parts have to be there. -/
def parse (s : String) : Except MessageError Namespace :=
  match splitDot s.toList with
  | some (d :: ds, c :: cs) => .ok ⟨String.ofList (d :: ds), String.ofList (c :: cs)⟩
  | _ => .error (.invalidNamespace s)

end Namespace

end DocumentServer
