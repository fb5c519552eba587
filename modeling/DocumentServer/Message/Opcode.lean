namespace DocumentServer

inductive Opcode where
  | reply
  | update
  | insert
  | query
  | getMore
  | delete
  | killCursors
  deriving DecidableEq, Inhabited

namespace Opcode

def all : List Opcode := [reply, update, insert, query, getMore, delete, killCursors]

def number : Opcode → Nat
  | reply => 1
  | update => 2001
  | insert => 2002
  | query => 2004
  | getMore => 2005
  | delete => 2006
  | killCursors => 2007

def ofNumber? (n : Int) : Option Opcode := all.find? fun op => (op.number : Int) = n

/-- Whether a request is answered. Writes and the closing of cursors are not; a client asks for
their last failure. -/
def canReply : Opcode → Bool
  | query | getMore => true
  | _ => false

def name : Opcode → String
  | reply => "reply"
  | update => "update"
  | insert => "insert"
  | query => "query"
  | getMore => "get_more"
  | delete => "delete"
  | killCursors => "kill_cursors"

theorem ofNumber?_number (op : Opcode) : ofNumber? op.number = some op := by
  cases op <;> rfl

end Opcode

end DocumentServer
