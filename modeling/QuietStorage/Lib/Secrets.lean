import QuietStorage.Lib.ObjectGraph

/-!
# Lib.Secrets — what an object graph holds under secret keys

Two graphs differ only under secret keys (`DifferUnder`) when they have the same objects up to what Maps
and records hold under these keys. Texts are then the same (`DifferUnder.stringOf_eq`), and so is
`constructor.name`.

**Contents.** A value has the same contents in both graphs (`SameContents`) if no difference is found
between them at any depth. It has if it reaches nothing that is held under a secret key
(`DifferUnder.sameContents`), and if it does reach something there is a graph that differs only under
secret keys, in which the contents are different (`not_sameContents_blanked`).
-/

set_option autoImplicit false

namespace QuietStorage.Lib.Js

namespace Graph

/-- An object that is reached from a value. -/
inductive Reaches (g : Graph) : Value → Nat → Prop
  | here (r : Nat) : Reaches g (.ref r) r
  | step {r r' : Nat} {v : Value} (holds : v ∈ (g.node r).values) (rest : Reaches g v r') :
    Reaches g (.ref r) r'

/-! ## Secrets -/

section
variable (secret : JsString → Bool)

/-- A Map holds something under a secret key. -/
def SecretEntry (g : Graph) (key : Value) : Prop :=
  ∃ text, g.stringOf key = .ok text ∧ secret text = true

/-- Two pairs agree, but for what is under some keys. -/
def AgreeBut {κ ω : Type} (P : κ → Prop) (a b : κ × ω) : Prop := a.1 = b.1 ∧ (P a.1 ∨ a.2 = b.2)

/-- The objects are the same, but for what they hold under secret keys. -/
def SameBut (g : Graph) : Node → Node → Prop
  | .record name fields, .record name' fields' =>
    name = name' ∧ List.Forall₂ (AgreeBut (secret · = true)) fields fields'
  | .map entries, .map entries' =>
    List.Forall₂ (AgreeBut (g.SecretEntry secret)) entries entries'
  | node, node' => node = node'

/-- **The graphs differ only under secret keys.** The objects that only one of two values refers to may
be in both graphs. -/
structure DifferUnder (g g' : Graph) : Prop where
  size : g.size = g'.size
  node : ∀ r < g.size, g.SameBut secret (g.node r) (g'.node r)

/-- The object holds something under a secret key. -/
def HoldsSecret (g : Graph) : Node → Prop
  | .record _ fields => ∃ field ∈ fields, secret field.1 = true
  | .map entries => ∃ entry ∈ entries, g.SecretEntry secret entry.1
  | _ => False

variable {secret} {g g' : Graph}

theorem SameBut.of_record {name : Option JsString} {fields : List (JsString × Value)} {node' : Node}
    (same : g.SameBut secret (.record name fields) node') :
    ∃ fields', node' = .record name fields' ∧
      List.Forall₂ (AgreeBut (secret · = true)) fields fields' := by
  cases node' with
  | record name' fields' =>
    obtain ⟨rfl, related⟩ := same
    exact ⟨fields', rfl, related⟩
  | _ => cases same

theorem SameBut.of_map {entries : List (Value × Value)} {node' : Node}
    (same : g.SameBut secret (.map entries) node') :
    ∃ entries', node' = .map entries' ∧
      List.Forall₂ (AgreeBut (g.SecretEntry secret)) entries entries' := by
  cases node' with
  | map entries' => exact ⟨entries', rfl, same⟩
  | _ => cases same

/-- Pairs that agree but for what is under some keys. -/
theorem eq_of_agree {κ ω : Type} {P : κ → Prop} {l l' : List (κ × ω)}
    (related : List.Forall₂ (AgreeBut P) l l')
    (none_ : ∀ a ∈ l, ¬P a.1) : l' = l := by
  induction related with
  | nil => rfl
  | @cons a b l l' first _ ih =>
    obtain ⟨here, rest⟩ := List.forall_mem_cons.mp none_
    rw [ih rest, Prod.ext first.1 (first.2.resolve_left here)]

/-- The same keys are there, and hold the same unless they are among these. -/
theorem lookup_of_agree {κ ω : Type} [BEq κ] [LawfulBEq κ] {P : κ → Prop} {l l' : List (κ × ω)}
    (related : List.Forall₂ (AgreeBut P) l l') (k : κ) :
    (l.lookup k).isSome = (l'.lookup k).isSome ∧ (¬P k → l.lookup k = l'.lookup k) := by
  induction related with
  | nil => exact ⟨rfl, fun _ => rfl⟩
  | @cons a b l l' first _ ih =>
    obtain ⟨key, value⟩ := a
    obtain ⟨key', value'⟩ := b
    obtain ⟨isKey, held⟩ := first
    dsimp only at isKey held
    subst isKey
    by_cases same : k == key
    · rw [List.lookup_cons, List.lookup_cons, same]
      refine ⟨rfl, fun notAmong => ?_⟩
      rw [eq_of_beq same] at notAmong
      rw [held.resolve_left notAmong]
    · rw [List.lookup_cons, List.lookup_cons, Bool.eq_false_iff.mpr same]
      exact ih

/-- Objects that hold nothing under a secret key are the same. -/
theorem SameBut.eq {node node' : Node} (same : g.SameBut secret node node')
    (none_ : ¬g.HoldsSecret secret node) : node' = node := by
  cases node with
  | record name fields =>
    obtain ⟨fields', rfl, related⟩ := same.of_record
    rw [eq_of_agree related fun field mem isSecret => none_ ⟨field, mem, isSecret⟩]
  | map entries =>
    obtain ⟨entries', rfl, related⟩ := same.of_map
    rw [eq_of_agree related fun entry mem isSecret => none_ ⟨entry, mem, isSecret⟩]
  | array items => exact Eq.symm same
  | set values => exact Eq.symm same
  | error name₁ name₂ message stack cause => exact Eq.symm same
  | date iso text => exact Eq.symm same
  | binary kind bytes text => exact Eq.symm same

/-- Objects agree with themselves. -/
theorem SameBut.refl (node : Node) : g.SameBut secret node node := by
  cases node with
  | record name fields => exact ⟨rfl, List.forall₂_same.mpr fun _ _ => ⟨rfl, .inr rfl⟩⟩
  | map entries => exact List.forall₂_same.mpr fun _ _ => ⟨rfl, .inr rfl⟩
  | _ => exact rfl

namespace DifferUnder

variable (differ : DifferUnder secret g g')
include differ

/-- What one of the objects is in both graphs. -/
theorem node_cases {r : Nat} (within : r < g.size) :
    (∃ name fields fields', g.node r = .record name fields ∧ g'.node r = .record name fields' ∧
      List.Forall₂ (AgreeBut (secret · = true)) fields fields') ∨
    (∃ entries entries', g.node r = .map entries ∧ g'.node r = .map entries' ∧
      List.Forall₂ (AgreeBut (g.SecretEntry secret)) entries entries') ∨
    g'.node r = g.node r := by
  have same := differ.node r within
  cases isNode : g.node r with
  | record name fields =>
    rw [isNode] at same
    obtain ⟨fields', isNode', related⟩ := same.of_record
    exact .inl ⟨name, fields, fields', rfl, isNode', related⟩
  | map entries =>
    rw [isNode] at same
    obtain ⟨entries', isNode', related⟩ := same.of_map
    exact .inr (.inl ⟨entries, entries', rfl, isNode', related⟩)
  | _ =>
    rw [isNode] at same
    exact .inr (.inr same.symm)

/-- Texts do not depend on what is under secret keys. -/
theorem textWithin_eq (depth : Nat) (joining : List Nat) {v : Value} (within : v.Within g.size) :
    g.textWithin depth joining v = g'.textWithin depth joining v := by
  induction depth generalizing joining v with
  | zero => rfl
  | succ depth ih =>
    cases v with
    | ref r =>
      unfold textWithin textStep
      dsimp only
      rcases differ.node_cases within with
        ⟨name, fields, fields', isNode, isNode', related⟩ | ⟨entries, entries', isNode, isNode', _⟩ | same
      · rw [isNode, isNode']
        dsimp only
        rw [(lookup_of_agree related (ascii "toString")).1]
      · rw [isNode, isNode']
      · rw [same]
        cases isNode : g.node r with
        | array items =>
          have each : ∀ v ∈ items, itemText (g.textWithin depth (r :: joining)) v =
              itemText (g'.textWithin depth (r :: joining)) v := by
            intro v mem
            have inside : v.Within g.size := g.closed r within v (by rw [isNode]; exact mem)
            rw [itemText, itemText, ih (r :: joining) inside]
          dsimp only
          rw [Traversal.mapM_congr (List.forall₂_same.mpr each)]
        | _ => rfl
    | _ => rfl

theorem toText_eq {v : Value} (within : v.Within g.size) : g.toText v = g'.toText v := by
  rw [toText, toText, ← differ.size, differ.textWithin_eq _ _ within]

theorem stringOf_eq {v : Value} (within : v.Within g.size) : g.stringOf v = g'.stringOf v := by
  cases v with
  | symbol description => rfl
  | _ => exact differ.toText_eq within

theorem nameOf_eq (plain : secret (ascii "name") = false) {v : Value} (within : v.Within g.size) :
    g.nameOf v = g'.nameOf v := by
  cases v with
  | ref r =>
    unfold nameOf
    dsimp only
    rcases differ.node_cases within with
      ⟨name, fields, fields', isNode, isNode', related⟩ | ⟨entries, entries', isNode, isNode', _⟩ | same
    · rw [isNode, isNode']
      dsimp only
      rw [(lookup_of_agree related (ascii "name")).2 (by rw [plain]; exact Bool.false_ne_true)]
    · rw [isNode, isNode']
    · rw [same]
  | _ => rfl

theorem items?_eq {v : Value} (within : v.Within g.size) : g.items? v = g'.items? v := by
  cases v with
  | ref r =>
    unfold items?
    dsimp only
    rcases differ.node_cases within with
      ⟨name, fields, fields', isNode, isNode', _⟩ | ⟨entries, entries', isNode, isNode', _⟩ | same
    · rw [isNode, isNode']
    · rw [isNode, isNode']
    · rw [same]
  | _ => rfl

/-- What a record's constructor is called does not depend on what is under secret keys. -/
theorem constructorName_eq (plain : secret (ascii "name") = false)
    (plain' : secret (ascii "constructor") = false) (inherited : Option JsString)
    {fields fields' : List (JsString × Value)}
    (related : List.Forall₂ (AgreeBut (secret · = true)) fields fields')
    (within : ∀ field ∈ fields, field.2.Within g.size) :
    g.constructorName inherited fields = g'.constructorName inherited fields' := by
  unfold constructorName
  rw [← (lookup_of_agree related (ascii "constructor")).2 (by rw [plain']; exact Bool.false_ne_true)]
  cases found : fields.lookup (ascii "constructor") with
  | none => rfl
  | some own => exact differ.nameOf_eq plain (within _ (mem_of_lookup found))

end DifferUnder

end

/-! ## Contents -/

section
variable (secret : JsString → Bool)

/-- Objects that are built alike, of values that are related. -/
def NodeAlike (R : Value → Value → Prop) : Node → Node → Prop
  | .array items, .array items' => List.Forall₂ R items items'
  | .record name fields, .record name' fields' =>
    name = name' ∧ List.Forall₂ (fun a b => a.1 = b.1 ∧ R a.2 b.2) fields fields'
  | .map entries, .map entries' =>
    List.Forall₂ (fun a b => R a.1 b.1 ∧ R a.2 b.2) entries entries'
  | .set values, .set values' => List.Forall₂ R values values'
  | .error constructorName name message stack cause,
      .error constructorName' name' message' stack' cause' =>
    (constructorName, name, message, stack) = (constructorName', name', message', stack') ∧
      R cause cause'
  | node, node' => node = node'

/-- No difference is found between the values, down to some depth. -/
def Alike (g g' : Graph) : (depth : Nat) → Value → Value → Prop
  | 0, _, _ => True
  | depth + 1, .ref r, .ref r' => NodeAlike (Alike g g' depth) (g.node r) (g'.node r')
  | _ + 1, v, v' => v = v'

/-- **The value has the same contents in both graphs.** -/
def SameContents (g g' : Graph) (v : Value) : Prop := ∀ depth, g.Alike g' depth v v

/-- Another value. -/
def other (v : Value) : Value := if v = .null then .undefined else .null

/-- What is under some keys is replaced by something else. -/
def blankedUnder {κ : Type} (P : κ → Bool) (l : List (κ × Value)) : List (κ × Value) :=
  l.map fun a => if P a.1 then (a.1, other a.2) else a

def isSecretEntry (g : Graph) (key : Value) : Bool := (g.stringOf key).toOption.any secret

def blankedNode (g : Graph) : Node → Node
  | .record name fields => .record name (blankedUnder secret fields)
  | .map entries => .map (blankedUnder (g.isSecretEntry secret) entries)
  | node => node

variable {secret} {g g' : Graph}

theorem nodeAlike_self {R : Value → Value → Prop} {node : Node} :
    NodeAlike R node node ↔ ∀ v ∈ node.values, R v v := by
  cases node with
  | array items => exact List.forall₂_same
  | record name fields =>
    simp only [NodeAlike, true_and, List.forall₂_same, Node.values, List.forall_mem_map]
  | map entries =>
    simp only [NodeAlike, List.forall₂_same, Node.values, List.mem_flatMap, List.mem_pair]
    constructor
    · rintro each v ⟨entry, mem, rfl | rfl⟩
      · exact (each entry mem).1
      · exact (each entry mem).2
    · exact fun each entry mem =>
        ⟨each entry.1 ⟨entry, mem, .inl rfl⟩, each entry.2 ⟨entry, mem, .inr rfl⟩⟩
  | set values => exact List.forall₂_same
  | error constructorName name message stack cause => simp [NodeAlike, Node.values]
  | date iso text => simp [NodeAlike, Node.values]
  | binary kind bytes text => simp [NodeAlike, Node.values]

/-- What reaches nothing secret has the same contents. -/
theorem DifferUnder.sameContents (differ : DifferUnder secret g g') {v : Value}
    (within : v.Within g.size) (clean : ∀ r, g.Reaches v r → ¬g.HoldsSecret secret (g.node r)) :
    g.SameContents g' v := by
  intro depth
  induction depth generalizing v with
  | zero => trivial
  | succ depth ih =>
    cases v with
    | ref r =>
      have isNode : g'.node r = g.node r := (differ.node r within).eq (clean r (.here r))
      unfold Alike
      rw [isNode, nodeAlike_self]
      exact fun v held => ih (g.closed r within v held) fun r' rest => clean r' (.step held rest)
    | _ => exact rfl

/-! ## The blanked graph -/

theorem isSecretEntry_iff {key : Value} :
    g.isSecretEntry secret key = true ↔ g.SecretEntry secret key := by
  unfold isSecretEntry SecretEntry
  cases g.stringOf key with
  | error e => simp [Except.toOption]
  | ok text => simp [Except.toOption]

theorem alike_other (g g' : Graph) (v : Value) (depth : Nat) :
    ¬g.Alike g' (depth + 1) v (other v) := by
  unfold other
  split
  · next isNull =>
    rw [isNull]
    exact nofun
  · next notNull =>
    intro alike
    cases v with
    | null => exact notNull rfl
    | _ => cases alike

theorem agree_blankedUnder {κ : Type} (P : κ → Bool) (l : List (κ × Value)) :
    List.Forall₂ (AgreeBut (P · = true)) l (blankedUnder P l) := by
  unfold blankedUnder
  rw [List.forall₂_map_right_iff, List.forall₂_same]
  intro a _
  split
  · next among => exact ⟨rfl, .inl among⟩
  · exact ⟨rfl, .inr rfl⟩

theorem forall₂_blankedUnder {κ : Type} {P : κ → Bool} {l : List (κ × Value)}
    {R : Value → Value → Prop} (related : List.Forall₂ (fun a b => R a.2 b.2) l (blankedUnder P l))
    {a : κ × Value} (mem : a ∈ l) (among : P a.1 = true) : R a.2 (other a.2) := by
  unfold blankedUnder at related
  rw [List.forall₂_map_right_iff, List.forall₂_same] at related
  have here := related a mem
  rwa [among, if_pos rfl] at here

theorem mem_blankedUnder {κ : Type} {P : κ → Bool} {l : List (κ × Value)} {a : κ × Value}
    (mem : a ∈ blankedUnder P l) : ∃ b ∈ l, a.1 = b.1 ∧ (a.2 = b.2 ∨ a.2 = other b.2) := by
  obtain ⟨b, memB, rfl⟩ := List.mem_map.mp mem
  refine ⟨b, memB, ?_⟩
  split
  · exact ⟨rfl, .inr rfl⟩
  · exact ⟨rfl, .inl rfl⟩

theorem other_within (v : Value) (size : Nat) : (other v).Within size := by
  unfold other
  split
  · trivial
  · trivial

theorem other_isFunction (v : Value) : (other v).isFunction = false := by
  unfold other
  split
  · rfl
  · rfl

theorem mem_values_blankedNode {node : Node} {v : Value}
    (mem : v ∈ (g.blankedNode secret node).values) : ∃ u ∈ node.values, v = u ∨ v = other u := by
  cases node with
  | record name fields =>
    obtain ⟨field, memField, rfl⟩ := List.mem_map.mp mem
    obtain ⟨field', mem', _, same⟩ := mem_blankedUnder memField
    exact ⟨field'.2, List.mem_map_of_mem mem', same⟩
  | map entries =>
    obtain ⟨entry, memEntry, among⟩ := List.mem_flatMap.mp mem
    obtain ⟨entry', mem', isKey, same⟩ := mem_blankedUnder memEntry
    rcases List.mem_pair.mp among with rfl | rfl
    · exact ⟨entry'.1, List.mem_flatMap.mpr ⟨entry', mem', by simp⟩, .inl isKey⟩
    · exact ⟨entry'.2, List.mem_flatMap.mpr ⟨entry', mem', by simp⟩, same⟩
  | _ => exact ⟨v, mem, .inl rfl⟩

theorem length_values_blankedNode (node : Node) :
    (g.blankedNode secret node).values.length = node.values.length := by
  cases node with
  | record name fields => simp [blankedNode, Node.values, blankedUnder]
  | map entries => simp [blankedNode, Node.values, blankedUnder, Function.comp_def]
  | _ => rfl

variable (secret)

/-- **The graph with everything under a secret key replaced.** -/
def blanked (g : Graph) : Graph where
  node r := g.blankedNode secret (g.node r)
  size := g.size
  closed := by
    intro r within v mem
    obtain ⟨u, held, rfl | rfl⟩ := mem_values_blankedNode mem
    · exact g.closed r within v held
    · exact other_within u g.size
  counted r within := by
    rw [length_values_blankedNode]
    exact g.counted r within
  distinct := by
    intro r within
    have distinct := g.distinct r within
    cases isNode : g.node r with
    | record name fields =>
      rw [isNode] at distinct
      have keys : (blankedUnder secret fields).map Prod.fst = fields.map Prod.fst := by
        unfold blankedUnder
        rw [List.map_map]
        refine List.map_congr_left fun field _ => ?_
        dsimp only [Function.comp_apply]
        split
        · rfl
        · rfl
      show ((blankedUnder secret fields).map Prod.fst).Nodup
      rwa [keys]
    | _ => trivial
  uncalled := by
    intro r within
    have uncalled := g.uncalled r within
    cases isNode : g.node r with
    | record name fields =>
      rw [isNode] at uncalled
      intro field mem isConversion
      obtain ⟨field', mem', isKey, same⟩ := mem_blankedUnder mem
      rcases same with same | same
      · rw [same]
        exact uncalled field' mem' (isKey ▸ isConversion)
      · rw [same]
        exact other_isFunction field'.2
    | _ => trivial

theorem sameBut_blankedNode (g : Graph) (node : Node) :
    g.SameBut secret node (g.blankedNode secret node) := by
  cases node with
  | record name fields => exact ⟨rfl, agree_blankedUnder secret fields⟩
  | map entries =>
    refine (agree_blankedUnder (g.isSecretEntry secret) entries).imp fun a b agree => ?_
    exact ⟨agree.1, agree.2.imp_left isSecretEntry_iff.mp⟩
  | _ => exact SameBut.refl _

theorem differUnder_blanked (g : Graph) : DifferUnder secret g (g.blanked secret) where
  size := rfl
  node r _ := sameBut_blankedNode secret g (g.node r)

variable {secret}

/-- Under a secret key, the contents differ. -/
theorem not_nodeAlike_blanked {depth : Nat} {node : Node} (holds : g.HoldsSecret secret node) :
    ¬NodeAlike (g.Alike g' (depth + 1)) node (g.blankedNode secret node) := by
  cases node with
  | record name fields =>
    obtain ⟨field, mem, isSecret⟩ := holds
    rintro ⟨_, related⟩
    have alike := forall₂_blankedUnder (related.imp fun _ _ => And.right) mem isSecret
    exact alike_other g g' field.2 depth alike
  | map entries =>
    obtain ⟨entry, mem, isSecret⟩ := holds
    intro related
    have alike := forall₂_blankedUnder (List.Forall₂.imp (fun _ _ => And.right) related) mem
      (isSecretEntry_iff.mpr isSecret)
    exact alike_other g g' entry.2 depth alike
  | _ => cases holds

/-- **What reaches something secret has other contents in the blanked graph.** -/
theorem not_sameContents_blanked {v : Value} {r : Nat} (reaches : g.Reaches v r)
    (holds : g.HoldsSecret secret (g.node r)) : ¬g.SameContents (g.blanked secret) v := by
  induction reaches with
  | here r => exact fun same => not_nodeAlike_blanked holds (same 2)
  | @step r r' v held _ ih =>
    intro same
    by_cases early : g.HoldsSecret secret (g.node r)
    · exact not_nodeAlike_blanked early (same 2)
    · refine ih holds fun depth => ?_
      have isNode : (g.blanked secret).node r = g.node r := (sameBut_blankedNode secret g _).eq early
      have alike := same (depth + 1)
      unfold Alike at alike
      rw [isNode, nodeAlike_self] at alike
      exact alike v held

end

end Graph

end QuietStorage.Lib.Js
