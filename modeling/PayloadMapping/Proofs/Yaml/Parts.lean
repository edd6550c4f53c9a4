import PayloadMapping.Decode.Yaml
import PayloadMapping.Proofs.Yaml.Tokens

set_option autoImplicit false

/-!
# Nodes of shared texts

The tokens of a text that JSON and YAML share make up nodes without anchors and tags, and these
are decoded to the value that the text stands for.
-/

namespace PayloadMapping.Yaml

open Json (Piece SpellsWord)

/-! ## Parts without anchors -/

/-- Parts that add nodes to the innermost collection that is open, whatever follows them. -/
def Makes (parts : List NamedPart) (nodes : List Node) : Prop :=
  ∃ numbered : List (Part Nat),
    (∀ rest, Document.number [] (parts ++ rest) =
      (numbered ++ (Document.number [] rest).1, (Document.number [] rest).2)) ∧
    ∀ tree : Tree, numbered.foldl Tree.addPart tree =
      nodes.foldl (fun tree node => tree.add node) tree

theorem Makes.nil : Makes [] [] := ⟨[], fun _ => rfl, fun _ => rfl⟩

theorem Makes.append {parts others : List NamedPart} {nodes more : List Node}
    (h : Makes parts nodes) (h' : Makes others more) : Makes (parts ++ others) (nodes ++ more) := by
  obtain ⟨numbered, hnumber, hfold⟩ := h
  obtain ⟨numbered', hnumber', hfold'⟩ := h'
  refine ⟨numbered ++ numbered', fun rest => ?_, fun tree => ?_⟩
  · rw [List.append_assoc, hnumber, hnumber', List.append_assoc]
  · rw [List.foldl_append, hfold, hfold', List.foldl_append]

theorem Makes.scalar (mark : Mark) (text : String) (plain : Bool) :
    Makes [.scalar mark none none text plain] [.scalar mark none none text plain] :=
  ⟨[.scalar mark none none text plain], fun _ => rfl, fun _ => rfl⟩

theorem foldl_add (nodes : List Node) (inner : OpenNode) (outer : List OpenNode)
    (root : Option Node) :
    nodes.foldl (fun tree node => tree.add node) (⟨inner :: outer, root⟩ : Tree) =
      ⟨{ inner with read := nodes.reverse ++ inner.read } :: outer, root⟩ := by
  induction nodes generalizing inner with
  | nil => rfl
  | cons node rest ih =>
    rw [List.foldl_cons, List.reverse_cons, List.append_assoc]
    exact ih (inner.add node)

def opening (isMapping : Bool) (mark : Mark) : NamedPart :=
  if isMapping then .mapping mark none none else .sequence mark none none

theorem Makes.collection {parts : List NamedPart} {nodes : List Node} (h : Makes parts nodes)
    (isMapping : Bool) (mark : Mark) :
    Makes (opening isMapping mark :: (parts ++ [.close]))
      [OpenNode.toNode ⟨isMapping, mark, none, none, nodes.reverse⟩] := by
  obtain ⟨numbered, hnumber, hfold⟩ := h
  have hclose : ∀ (tree : Tree) (inner : OpenNode), inner.read = [] →
      Tree.close (nodes.foldl (fun tree node => tree.add node) (tree.openNode inner)) =
        tree.add (OpenNode.toNode { inner with read := nodes.reverse }) := by
    intro tree inner hread
    rw [Tree.openNode, foldl_add, hread, List.append_nil]
    rfl
  let first : Part Nat := if isMapping then .mapping mark none none else .sequence mark none none
  refine ⟨first :: (numbered ++ [.close]), fun rest => ?_, fun tree => ?_⟩
  · have hrest := hnumber (.close :: rest)
    cases isMapping
    all_goals
      simp only [opening, first, List.cons_append, List.append_assoc, List.nil_append,
        Document.number, Document.claim, Bool.false_eq_true, if_false, if_true] at hrest ⊢
      rw [hrest]
  · rw [List.foldl_cons, List.foldl_append, hfold]
    cases isMapping
    all_goals exact hclose tree ⟨_, mark, none, none, []⟩ rfl

def inTurn (entries : List (Node × Node)) : List Node :=
  entries.flatMap fun entry => [entry.1, entry.2]

theorem pairs_inTurn (entries : List (Node × Node)) : Node.pairs (inTurn entries) = entries := by
  induction entries with
  | nil => rfl
  | cons entry rest ih => exact congrArg (entry :: ·) ih

theorem Makes.sequence {parts : List NamedPart} {nodes : List Node} (h : Makes parts nodes)
    (mark : Mark) :
    Makes (.sequence mark none none :: (parts ++ [.close])) [.sequence mark none none nodes] := by
  simpa [opening, OpenNode.toNode] using h.collection false mark

theorem Makes.mapping {parts : List NamedPart} {entries : List (Node × Node)}
    (h : Makes parts (inTurn entries)) (mark : Mark) :
    Makes (.mapping mark none none :: (parts ++ [.close])) [.mapping mark none none entries] := by
  simpa [opening, OpenNode.toNode, pairs_inTurn] using h.collection true mark

/-! ## Nodes and the values they hold -/

/-- A node is decoded to a value where `room` collections may lie inside each other. A null is
spelled in full. -/
structure Node.Holds (room : Nat) (node : Node) (v : Value) : Prop where
  decodes : ∀ (document : Document) (trail : Trail) (followed limit : Nat), room ≤ limit →
    decodeValue document limit trail followed node = .ok (v, followed)
  spelled : v = .null → ∃ mark, node = .scalar mark none none "null" true

/-- The key of an entry is a quoted scalar. -/
def HoldsEntry (room : Nat) (entry : Node × Node) (field : String × Value) : Prop :=
  (∃ mark, entry.1 = .scalar mark none none field.1 false) ∧ entry.2.Holds room field.2

theorem Node.Holds.word {room : Nat} {word : List Char} {v : Value} (h : SpellsWord word v)
    (mark : Mark) : Node.Holds room (.scalar mark none none (String.ofList word) true) v := by
  refine ⟨fun document trail followed limit _ => ?_, ?_⟩
  · have hvalue := scalarValue_of_word h trail mark
    rw [decodeValue.eq_def]
    change (scalarValue (meaning (String.ofList word)) (String.ofList word) trail mark >>= _) = _
    rw [hvalue]
    rfl
  · rintro rfl
    cases h
    exact ⟨mark, rfl⟩

theorem Node.Holds.string (room : Nat) (mark : Mark) (text : String) :
    Node.Holds room (.scalar mark none none text false) (.string text) := by
  refine ⟨fun document trail followed limit _ => ?_, by simp⟩
  rw [decodeValue.eq_def]
  rfl

theorem decodeItems_of_holds {room limit : Nat} (hroom : room ≤ limit) (document : Document)
    (trail : Trail) {nodes : List Node} {vs : List Value}
    (h : List.Forall₂ (Node.Holds room) nodes vs) : ∀ position followed : Nat,
      decodeItems (decodeValue document limit) trail position followed nodes =
        .ok (vs, followed) := by
  induction h with
  | nil => exact fun _ _ => rfl
  | cons hfirst _ ih =>
    intro position followed
    rw [decodeItems, hfirst.decodes _ _ _ _ hroom]
    change (decodeItems _ trail (position + 1) followed _ >>= _) = _
    rw [ih]
    rfl

theorem decodeEntries_of_holds {room limit : Nat} (hroom : room ≤ limit) (document : Document)
    (trail : Trail) (followed : Nat) {entries : List (Node × Node)} {fields : Fields Value}
    (h : List.Forall₂ (HoldsEntry room) entries fields) :
    ∀ (expected : String) (read : Fields Value),
      decodeEntries document (decodeValue document limit) trail expected read followed entries =
        .ok (Fields.merge read fields, followed) := by
  induction h with
  | nil => exact fun _ _ => rfl
  | @cons entry field entries fields hfirst _ ih =>
    intro expected read
    obtain ⟨key, value⟩ := entry
    obtain ⟨⟨mark, rfl⟩, hvalue⟩ := hfirst
    rw [decodeEntries]
    change (decodeValue document limit _ followed value >>= _) = _
    rw [hvalue.decodes _ _ _ _ hroom]
    exact ih _ _

theorem Node.Holds.sequence {room : Nat} {nodes : List Node} {vs : List Value}
    (h : List.Forall₂ (Node.Holds room) nodes vs) (mark : Mark) :
    Node.Holds (room + 1) (.sequence mark none none nodes) (.array vs) := by
  refine ⟨fun document trail followed limit hlimit => ?_, by simp⟩
  obtain ⟨limit, rfl⟩ := Nat.exists_eq_add_one_of_ne_zero (Nat.ne_zero_of_lt hlimit)
  rw [decodeValue.eq_def]
  change (decodeItems (decodeValue document limit) trail 0 followed nodes >>= _) = _
  rw [decodeItems_of_holds (Nat.le_of_succ_le_succ hlimit) document trail h]
  rfl

theorem Node.Holds.mapping {room : Nat} {entries : List (Node × Node)} {fields : Fields Value}
    (h : List.Forall₂ (HoldsEntry room) entries fields) (mark : Mark) :
    Node.Holds (room + 1) (.mapping mark none none entries)
      (.object (Fields.merge [] fields)) := by
  refine ⟨fun document trail followed limit hlimit => ?_, by simp⟩
  obtain ⟨limit, rfl⟩ := Nat.exists_eq_add_one_of_ne_zero (Nat.ne_zero_of_lt hlimit)
  rw [decodeValue.eq_def]
  change (decodeEntries document (decodeValue document limit) trail "a string key" [] followed
    entries >>= _) = _
  rw [decodeEntries_of_holds (Nat.le_of_succ_le_succ hlimit) document trail followed h]
  rfl

/-! ## Reading the parts -/

def startsNode : TokenKind → Bool
  | .scalar _ _ | .flowSequenceStart | .flowMappingStart => true
  | _ => false

theorem TokensOf.head {room : Nat} {v : Value} {kinds : List TokenKind}
    (h : TokensOf room (.value v) kinds) :
    ∃ kind more, kinds = kind :: more ∧ startsNode kind = true := by
  cases h with
  | word | string | list | object => exact ⟨_, _, rfl, rfl⟩

theorem TokensOf.length_pos {room : Nat} {piece : Piece} {kinds : List TokenKind}
    (h : TokensOf room piece kinds) : 0 < kinds.length := by
  cases h with
  | word | string | list | object | noItem | noEntry => exact Nat.zero_lt_succ _
  | item value | entry value =>
    obtain ⟨kind, more, rfl, -⟩ := value.head
    simp

section

variable {handles : Handles} {steps : Nat} {before : List NamedPart} {rest : List Token}

theorem Reading.on_andThen (parts : List NamedPart) (tokens : List Token)
    (next : List NamedPart → List Token → Reading) :
    (Reading.on parts tokens).andThen next = next parts tokens := rfl

theorem takeFlowItems_item {first : Bool} {commas : List Token} {token : Token}
    (hcommas : commas.map Token.kind = comma first) (hstart : startsNode token.kind = true) :
    Part.takeFlowItems handles first (steps + 1) before (commas ++ token :: rest) =
      (Part.takeNode handles false false steps before (token :: rest)).andThen
        (Part.takeFlowItems handles false steps) := by
  obtain ⟨kind, start, stop⟩ := token
  cases first with
  | true =>
    obtain rfl := List.map_eq_nil_iff.1 hcommas
    cases kind
    all_goals first | rfl | cases hstart
  | false =>
    obtain ⟨⟨_, _, _⟩, rfl, rfl⟩ := List.map_eq_singleton_iff.1 hcommas
    cases kind
    all_goals first | rfl | cases hstart

theorem takeFlowEntries_entry {first : Bool} {commas : List Token} {key name colon token : Token}
    {text : String} (hcommas : commas.map Token.kind = comma first) (hkey : key.kind = .key)
    (hname : name.kind = .scalar text false) (hcolon : colon.kind = .value)
    (hstart : startsNode token.kind = true) :
    Part.takeFlowEntries handles first (steps + 2) before
        (commas ++ key :: name :: colon :: token :: rest) =
      (Part.takeNode handles false false steps
          (.scalar name.start none none text false :: before) (token :: rest)).andThen
        (Part.takeFlowEntries handles false (steps + 1)) := by
  obtain ⟨kind, start, stop⟩ := token
  obtain ⟨_, _, _⟩ := key
  obtain ⟨_, _, _⟩ := name
  obtain ⟨_, _, _⟩ := colon
  obtain rfl : _ = TokenKind.key := hkey
  obtain rfl : _ = TokenKind.scalar text false := hname
  obtain rfl : _ = TokenKind.value := hcolon
  cases first with
  | true =>
    obtain rfl := List.map_eq_nil_iff.1 hcommas
    cases kind
    all_goals first | rfl | cases hstart
  | false =>
    obtain ⟨⟨_, _, _⟩, rfl, rfl⟩ := List.map_eq_singleton_iff.1 hcommas
    cases kind
    all_goals first | rfl | cases hstart

/-- Tokens are read as the parts of nodes that hold a piece. -/
def IsParsed (room : Nat) (tokens : List Token) : Piece → Prop
  | .value v => ∃ parts node, Makes parts [node] ∧ node.Holds room v ∧
      ∀ {handles : Handles} {block indentless : Bool} {steps : Nat} {before : List NamedPart}
        {rest : List Token}, 2 * tokens.length ≤ steps →
        Part.takeNode handles block indentless steps before (tokens ++ rest) =
          .on (parts.reverse ++ before) rest
  | .items first vs => ∃ parts nodes, Makes parts nodes ∧
      List.Forall₂ (Node.Holds room) nodes vs ∧
      ∀ {handles : Handles} {steps : Nat} {before : List NamedPart} {rest : List Token},
        2 * tokens.length ≤ steps →
        Part.takeFlowItems handles first steps before (tokens ++ rest) =
          .on (.close :: (parts.reverse ++ before)) rest
  | .entries first fields => ∃ parts entries, Makes parts (inTurn entries) ∧
      List.Forall₂ (HoldsEntry room) entries fields ∧
      ∀ {handles : Handles} {steps : Nat} {before : List NamedPart} {rest : List Token},
        2 * tokens.length ≤ steps →
        Part.takeFlowEntries handles first steps before (tokens ++ rest) =
          .on (.close :: (parts.reverse ++ before)) rest

variable {room : Nat} {token : Token} {tokens later commas : List Token}

theorem IsParsed.list {vs : List Value} (hkind : token.kind = .flowSequenceStart)
    (h : IsParsed room tokens (.items true vs)) :
    IsParsed (room + 1) (token :: tokens) (.value (.array vs)) := by
  obtain ⟨parts, nodes, hmakes, hholds, hparse⟩ := h
  obtain ⟨_, start, _⟩ := token
  obtain rfl : _ = TokenKind.flowSequenceStart := hkind
  refine ⟨_, _, hmakes.sequence start, .sequence hholds start, ?_⟩
  intro handles block indentless steps before rest hsteps
  rw [List.length_cons] at hsteps
  obtain ⟨steps, rfl⟩ := Nat.exists_eq_add_one_of_ne_zero (n := steps) (by omega)
  refine Eq.trans (hparse (by omega)) ?_
  simp [nextStart]

theorem IsParsed.object {fields : Fields Value} (hkind : token.kind = .flowMappingStart)
    (h : IsParsed room tokens (.entries true fields)) :
    IsParsed (room + 1) (token :: tokens) (.value (.object (Fields.merge [] fields))) := by
  obtain ⟨parts, entries, hmakes, hholds, hparse⟩ := h
  obtain ⟨_, start, _⟩ := token
  obtain rfl : _ = TokenKind.flowMappingStart := hkind
  refine ⟨_, _, hmakes.mapping start, .mapping hholds start, ?_⟩
  intro handles block indentless steps before rest hsteps
  rw [List.length_cons] at hsteps
  obtain ⟨steps, rfl⟩ := Nat.exists_eq_add_one_of_ne_zero (n := steps) (by omega)
  refine Eq.trans (hparse (by omega)) ?_
  simp [nextStart]

theorem IsParsed.item {first : Bool} {v : Value} {vs : List Value}
    (hcommas : commas.map Token.kind = comma first) (hstart : startsNode token.kind = true)
    (hvalue : IsParsed room (token :: tokens) (.value v))
    (hothers : IsParsed room later (.items false vs)) (hlater : 0 < later.length) :
    IsParsed room (commas ++ (token :: tokens ++ later)) (.items first (v :: vs)) := by
  obtain ⟨parts, node, hmakes, hholds, hparse⟩ := hvalue
  obtain ⟨more, nodes, hmake, hhold, hparses⟩ := hothers
  refine ⟨_, _, hmakes.append hmake, .cons hholds hhold, ?_⟩
  intro handles steps before rest hsteps
  simp only [List.length_append, List.length_cons] at hsteps
  obtain ⟨steps, rfl⟩ := Nat.exists_eq_add_one_of_ne_zero (n := steps) (by omega)
  have hread : Part.takeNode handles false false steps before
      (token :: (tokens ++ (later ++ rest))) = .on (parts.reverse ++ before) (later ++ rest) :=
    hparse (by rw [List.length_cons]; omega)
  rw [List.append_assoc, List.append_assoc, List.cons_append, takeFlowItems_item hcommas hstart,
    hread, Reading.on_andThen, hparses (by omega)]
  simp

theorem IsParsed.entry {first : Bool} {text : String} {v : Value} {fields : Fields Value}
    {key name colon : Token} (hcommas : commas.map Token.kind = comma first)
    (hkey : key.kind = .key) (hname : name.kind = .scalar text false)
    (hcolon : colon.kind = .value) (hstart : startsNode token.kind = true)
    (hvalue : IsParsed room (token :: tokens) (.value v))
    (hothers : IsParsed room later (.entries false fields)) (hlater : 0 < later.length) :
    IsParsed room (commas ++ key :: name :: colon :: (token :: tokens ++ later))
      (.entries first ((text, v) :: fields)) := by
  obtain ⟨parts, node, hmakes, hholds, hparse⟩ := hvalue
  obtain ⟨more, entries, hmake, hhold, hparses⟩ := hothers
  refine ⟨_, (.scalar name.start none none text false, node) :: entries,
    (Makes.scalar name.start text false).append (hmakes.append hmake),
    .cons ⟨⟨name.start, rfl⟩, hholds⟩ hhold, ?_⟩
  intro handles steps before rest hsteps
  simp only [List.length_append, List.length_cons] at hsteps
  obtain ⟨steps, rfl⟩ := Nat.exists_eq_add_of_le' (show 2 ≤ steps by omega)
  have hread : Part.takeNode handles false false steps
      (.scalar name.start none none text false :: before) (token :: (tokens ++ (later ++ rest))) =
      .on (parts.reverse ++ .scalar name.start none none text false :: before) (later ++ rest) :=
    hparse (by rw [List.length_cons]; omega)
  rw [List.append_assoc]
  simp only [List.cons_append, List.append_assoc]
  rw [takeFlowEntries_entry hcommas hkey hname hcolon hstart, hread, Reading.on_andThen,
    hparses (by omega)]
  simp

theorem isParsed_of_tokens {piece : Piece} {kinds : List TokenKind}
    (h : TokensOf room piece kinds) :
    ∀ {tokens : List Token}, tokens.map Token.kind = kinds → IsParsed room tokens piece := by
  induction h with
  | word means =>
    intro tokens htokens
    obtain ⟨⟨_, start, _⟩, rfl, rfl⟩ := List.map_eq_singleton_iff.1 htokens
    refine ⟨_, _, .scalar start _ true, .word means start, fun {_ _ _ steps _ _} hsteps => ?_⟩
    obtain ⟨steps, rfl⟩ := Nat.exists_eq_add_of_le' hsteps
    rfl
  | string =>
    intro tokens htokens
    obtain ⟨⟨_, start, _⟩, rfl, rfl⟩ := List.map_eq_singleton_iff.1 htokens
    refine ⟨_, _, .scalar start _ false, .string _ start _, fun {_ _ _ steps _ _} hsteps => ?_⟩
    obtain ⟨steps, rfl⟩ := Nat.exists_eq_add_of_le' hsteps
    rfl
  | list items ih =>
    intro tokens htokens
    obtain ⟨token, inner, rfl, hkind, hinner⟩ := List.map_eq_cons_iff.1 htokens
    exact .list hkind (ih hinner)
  | object entries ih =>
    intro tokens htokens
    obtain ⟨token, inner, rfl, hkind, hinner⟩ := List.map_eq_cons_iff.1 htokens
    exact .object hkind (ih hinner)
  | noItem | noEntry =>
    intro tokens htokens
    obtain ⟨⟨_, _, _⟩, rfl, rfl⟩ := List.map_eq_singleton_iff.1 htokens
    refine ⟨[], [], .nil, .nil, fun {_ steps _ _} hsteps => ?_⟩
    obtain ⟨steps, rfl⟩ := Nat.exists_eq_add_of_le' hsteps
    rfl
  | item value others ihv iho =>
    intro tokens htokens
    obtain ⟨commas, most, rfl, hcommas, hmost⟩ := List.map_eq_append_iff.1 htokens
    obtain ⟨_, later, rfl, hfirst, hlater⟩ := List.map_eq_append_iff.1 hmost
    obtain ⟨kind, more, rfl, hstart⟩ := value.head
    obtain ⟨token, inner, rfl, rfl, -⟩ := List.map_eq_cons_iff.1 hfirst
    refine .item hcommas hstart (ihv hfirst) (iho hlater) ?_
    rw [← List.length_map, hlater]
    exact others.length_pos
  | entry value others ihv iho =>
    intro tokens htokens
    obtain ⟨commas, most, rfl, hcommas, hmost⟩ := List.map_eq_append_iff.1 htokens
    obtain ⟨key, most, rfl, hkey, hmost⟩ := List.map_eq_cons_iff.1 hmost
    obtain ⟨name, most, rfl, hname, hmost⟩ := List.map_eq_cons_iff.1 hmost
    obtain ⟨colon, most, rfl, hcolon, hmost⟩ := List.map_eq_cons_iff.1 hmost
    obtain ⟨_, later, rfl, hfirst, hlater⟩ := List.map_eq_append_iff.1 hmost
    obtain ⟨kind, more, rfl, hstart⟩ := value.head
    obtain ⟨token, inner, rfl, rfl, -⟩ := List.map_eq_cons_iff.1 hfirst
    refine .entry hcommas hkey hname hcolon hstart (ihv hfirst) (iho hlater) ?_
    rw [← List.length_map, hlater]
    exact others.length_pos

end

end PayloadMapping.Yaml
