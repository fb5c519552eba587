import DocumentServer.Proofs.Builder

namespace DocumentServer

variable {α β γ : Type}

inductive Scalar.Related (S : α → β → Prop) : Scalar α → Scalar β → Prop
  | bare (s : Scalar Empty) : Related S (s.mapTexts Empty.elim) (s.mapTexts Empty.elim)
  | string {a b} (h : S a b) : Related S (.string a) (.string b)
  | regex {a b c d} (h : S a b) (ho : S c d) : Related S (.regex a c) (.regex b d)
  | dbPointer {a b} (h : S a b) (o : ObjectId) : Related S (.dbPointer a o) (.dbPointer b o)
  | javascript {a b} (h : S a b) : Related S (.javascript a) (.javascript b)
  | symbol {a b} (h : S a b) : Related S (.symbol a) (.symbol b)

mutual

inductive Value.Related {α β : Type} (K S : α → β → Prop) : Value α → Value β → Prop
  | scalar {s t} (h : Scalar.Related S s t) : Value.Related K S (.scalar s) (.scalar t)
  | document {d e} (h : Document.Related K S d e) : Value.Related K S (.document d) (.document e)
  | array {vs ws} (h : Value.RelatedAll K S vs ws) : Value.Related K S (.array vs) (.array ws)
  | codeWithScope {a b d e} (hc : S a b) (h : Document.Related K S d e) :
      Value.Related K S (.codeWithScope a d) (.codeWithScope b e)

inductive Document.Related {α β : Type} (K S : α → β → Prop) :
    List (α × Value α) → List (β × Value β) → Prop
  | nil : Document.Related K S [] []
  | cons {k l v w d e} (hk : K k l) (hv : Value.Related K S v w) (h : Document.Related K S d e) :
      Document.Related K S ((k, v) :: d) ((l, w) :: e)

inductive Value.RelatedAll {α β : Type} (K S : α → β → Prop) :
    List (Value α) → List (Value β) → Prop
  | nil : Value.RelatedAll K S [] []
  | cons {v w vs ws} (hv : Value.Related K S v w) (h : Value.RelatedAll K S vs ws) :
      Value.RelatedAll K S (v :: vs) (w :: ws)

end

section Texts

variable {K S : α → β → Prop} {g : α → γ} {h : β → γ}

theorem Scalar.Related.mapTexts (hS : ∀ a b, S a b → g a = h b) {s : Scalar α} {t : Scalar β}
    (hr : s.Related S t) : s.mapTexts g = t.mapTexts h := by
  cases hr with
  | bare s => cases s with
    | string t | javascript t | symbol t => exact t.elim
    | regex p _ => exact p.elim
    | dbPointer t _ => exact t.elim
    | _ => rfl
  | string ha | javascript ha | symbol ha => simp only [Scalar.mapTexts, hS _ _ ha]
  | regex ha hc => simp only [Scalar.mapTexts, hS _ _ ha, hS _ _ hc]
  | dbPointer ha o => simp only [Scalar.mapTexts, hS _ _ ha]

theorem Scalar.Related.strings {s : Scalar α} {t : Scalar β} (hr : s.Related S t) :
    List.Forall₂ S s.strings t.strings := by
  cases hr with
  | bare s => cases s with
    | string t | javascript t | symbol t => exact t.elim
    | regex p _ => exact p.elim
    | dbPointer t _ => exact t.elim
    | _ => exact .nil
  | string ha | javascript ha | symbol ha => exact .cons ha .nil
  | regex ha hc => exact .cons ha (.cons hc .nil)
  | dbPointer ha o => exact .cons ha .nil

mutual

/-- What is the same for related texts is the same for the whole. -/
theorem Value.Related.mapTexts (hK : ∀ a b, K a b → g a = h b) (hS : ∀ a b, S a b → g a = h b)
    {v : Value α} {w : Value β} : v.Related K S w → v.mapTexts g = w.mapTexts h
  | .scalar hr => by rw [Value.mapTexts, Value.mapTexts, hr.mapTexts hS]
  | .document hr => by rw [Value.mapTexts, Value.mapTexts, hr.mapTexts hK hS]
  | .array hr => by rw [Value.mapTexts, Value.mapTexts, hr.mapTexts hK hS]
  | .codeWithScope hc hr => by
    rw [Value.mapTexts, Value.mapTexts, hS _ _ hc, hr.mapTexts hK hS]

theorem Document.Related.mapTexts (hK : ∀ a b, K a b → g a = h b)
    (hS : ∀ a b, S a b → g a = h b) {d : List (α × Value α)} {e : List (β × Value β)} :
    Document.Related K S d e → Document.mapTexts g d = Document.mapTexts h e
  | .nil => by rw [Document.mapTexts, Document.mapTexts]
  | .cons hk hv hr => by
    rw [Document.mapTexts, Document.mapTexts, hK _ _ hk, hv.mapTexts hK hS, hr.mapTexts hK hS]

theorem Value.RelatedAll.mapTexts (hK : ∀ a b, K a b → g a = h b)
    (hS : ∀ a b, S a b → g a = h b) {vs : List (Value α)} {ws : List (Value β)} :
    Value.RelatedAll K S vs ws → Value.mapTextsAll g vs = Value.mapTextsAll h ws
  | .nil => by rw [Value.mapTextsAll, Value.mapTextsAll]
  | .cons hv hr => by
    rw [Value.mapTextsAll, Value.mapTextsAll, hv.mapTexts hK hS, hr.mapTexts hK hS]

end

mutual

theorem Value.Related.keys {v : Value α} {w : Value β} :
    v.Related K S w → List.Forall₂ K v.keys w.keys
  | .scalar _ => by rw [Value.keys, Value.keys]; exact .nil
  | .document hr => by rw [Value.keys, Value.keys]; exact hr.allKeys
  | .array hr => by rw [Value.keys, Value.keys]; exact hr.keys
  | .codeWithScope _ hr => by rw [Value.keys, Value.keys]; exact hr.allKeys

theorem Document.Related.allKeys {d : List (α × Value α)} {e : List (β × Value β)} :
    Document.Related K S d e → List.Forall₂ K (Document.allKeys d) (Document.allKeys e)
  | .nil => by rw [Document.allKeys, Document.allKeys]; exact .nil
  | .cons hk hv hr => by
    rw [Document.allKeys, Document.allKeys]
    exact .cons hk (List.rel_append hv.keys hr.allKeys)

theorem Value.RelatedAll.keys {vs : List (Value α)} {ws : List (Value β)} :
    Value.RelatedAll K S vs ws → List.Forall₂ K (Value.keysAll vs) (Value.keysAll ws)
  | .nil => by rw [Value.keysAll, Value.keysAll]; exact .nil
  | .cons hv hr => by
    rw [Value.keysAll, Value.keysAll]
    exact List.rel_append hv.keys hr.keys

end

mutual

theorem Value.Related.strings {v : Value α} {w : Value β} :
    v.Related K S w → List.Forall₂ S v.strings w.strings
  | .scalar hr => by rw [Value.strings, Value.strings]; exact hr.strings
  | .document hr => by rw [Value.strings, Value.strings]; exact hr.strings
  | .array hr => by rw [Value.strings, Value.strings]; exact hr.strings
  | .codeWithScope hc hr => by rw [Value.strings, Value.strings]; exact .cons hc hr.strings

theorem Document.Related.strings {d : List (α × Value α)} {e : List (β × Value β)} :
    Document.Related K S d e → List.Forall₂ S (Document.strings d) (Document.strings e)
  | .nil => by rw [Document.strings, Document.strings]; exact .nil
  | .cons _ hv hr => by
    rw [Document.strings, Document.strings]
    exact List.rel_append hv.strings hr.strings

theorem Value.RelatedAll.strings {vs : List (Value α)} {ws : List (Value β)} :
    Value.RelatedAll K S vs ws → List.Forall₂ S (Value.stringsAll vs) (Value.stringsAll ws)
  | .nil => by rw [Value.stringsAll, Value.stringsAll]; exact .nil
  | .cons hv hr => by
    rw [Value.stringsAll, Value.stringsAll]
    exact List.rel_append hv.strings hr.strings

end

end Texts

section Building

variable [HasContent α] [HasContent β] {K S : α → β → Prop}

omit [HasContent α] [HasContent β] in
theorem Value.RelatedAll.push {vs : List (Value α)} {ws : List (Value β)} {v : Value α}
    {w : Value β} (hv : v.Related K S w) :
    Value.RelatedAll K S vs ws → Value.RelatedAll K S (vs ++ [v]) (ws ++ [w])
  | .nil => .cons hv .nil
  | .cons hu hr => .cons hu (hr.push hv)

namespace Document

theorem Related.insert (hK : ∀ a b, K a b → HasContent.content a = HasContent.content b)
    {d : Document α} {e : Document β} {k : α} {l : β} {v : Value α} {w : Value β} (hk : K k l)
    (hv : v.Related K S w) (h : Related K S d e) :
    Related K S (Document.insert d k v) (Document.insert e l w) := by
  induction d generalizing e with
  | nil =>
    cases h
    exact .cons hk hv .nil
  | cons x d ih =>
    cases h with
    | cons hk' hv' hr =>
      rw [Document.insert, Document.insert, hK _ _ hk, hK _ _ hk']
      split
      · exact .cons hk' hv hr
      · exact .cons hk' hv' (ih hr)

namespace Builder

structure Related (K S : α → β → Prop) (b : Builder α) (c : Builder β) : Prop where
  left : b.Indexed
  right : c.Indexed
  build : Document.Related K S b.build c.build

theorem related_empty : Related K S empty empty :=
  ⟨indexed_empty, indexed_empty, .nil⟩

theorem Related.insert (hK : ∀ a b, K a b → HasContent.content a = HasContent.content b)
    {b : Builder α} {c : Builder β} (h : b.Related K S c) {k : α} {l : β} {v : Value α}
    {w : Value β} (hk : K k l) (hv : v.Related K S w) :
    (b.insert k v).Related K S (c.insert l w) := by
  apply Related.mk (h.left.insert k v) (h.right.insert l w)
  rw [build_insert h.left, build_insert h.right]
  exact h.build.insert hK hk hv

end Builder

end Document

end Building

end DocumentServer
