import DocumentServer.Yaml.Node

namespace DocumentServer.Yaml

structure Setting where
  root : Node
  node : Node

namespace Setting

/-- The node itself or, for a reference, the last node with its anchor. -/
def target (s : Setting) : Option Node :=
  match s.node with
  | .reference anchor => (s.root.anchored anchor).getLast?
  | node => some node

def text? (s : Setting) : Option String :=
  match s.target with
  | some (.scalar _ text _) => some text
  | _ => none

def entries? (s : Setting) : Option (List (String × Setting)) :=
  match s.target with
  | some (.mapping _ es) => es.mapM fun (k, v) => do
    return (← text? { s with node := k }, { s with node := v })
  | some (.scalar _ "" .plain) => some []
  | _ => none

/-- The text of a scalar that is not meant as a text: a plain one, or a literal one with the tag of
its kind. -/
def bare? (kind : String) (s : Setting) : Option String :=
  match s.target with
  | some (.scalar _ text .plain) => some text
  | some (.scalar m text .literal) =>
    if m.tag = some ("tag:yaml.org,2002:" ++ kind) then some text else none
  | _ => none

def unsigned? (s : Setting) : Option Nat := do
  let text ← s.bare? "int"
  let cs := match text.toList with
    | '+' :: cs => cs
    | cs => cs
  let (radix, ds) := match cs with
    | '0' :: 'x' :: ds => (16, ds)
    | '0' :: 'o' :: ds => (8, ds)
    | '0' :: 'b' :: ds => (2, ds)
    | ds => (10, ds)
  if radix = 10 && ds.length > 1 && ds.head? = some '0' then none
  match Address.number radix 0x10000000000000000 ds with
  | some (n, []) => some n
  | _ => none

def boolean? (s : Setting) : Option Bool := do
  match ← s.bare? "bool" with
  | "true" | "True" | "TRUE" => some true
  | "false" | "False" | "FALSE" => some false
  | _ => none

/-- A name, as a text or as the tag of a scalar that says nothing. A lone exclamation mark is a tag
with no name. -/
def choice? (s : Setting) : Option String :=
  match s.target with
  | some (.scalar m text style) =>
    match (m.tag.getD "").toList with
    | '!' :: name =>
      if style = .plain && ["", "~", "null", "Null", "NULL"].contains text then
        some (String.ofList name)
      else none
    | _ => some text
  | _ => none

def keyed {α : Type} (es : List (String × Setting)) (key : String) (read : Setting → Option α)
    (default : α) : Option α :=
  match es.filter fun e => e.1 = key with
  | [] => some default
  | [e] => read e.2
  | _ => none

end Setting

end DocumentServer.Yaml
