import PayloadMapping.Mapping.Load
import PayloadMapping.Proofs.Mapping.Written

set_option autoImplicit false

/-!
# Mappings read from YAML

Mappings in YAML are decoded from the nodes of a text, not from the value that the text stands
for. Where that value has every field once and decodes to a mapping, the nodes do as well.
-/

namespace PayloadMapping.Yaml

/-! ## Nodes that were read as values -/

theorem decodeText_ok {document : Document} {expected : String} {trail : Trail}
    {followed : Nat} {node : Node} {found : Decoded String}
    (h : decodeText document expected trail followed node = .ok found) (other : String) :
    decodeText document other trail followed node = .ok found := by
  obtain ⟨⟨target, _, _⟩, hfollow, hfound⟩ := Decode.bind_eq_ok h
  unfold decodeText
  rw [hfollow]
  cases target with
  | scalar => exact hfound
  | sequence | mapping => cases hfound
  | «alias» | cut => cases hfound

/-- What a node stands for whose value is `v`. -/
inductive StandsFor (document : Document) (room : Nat) (after : Nat) :
    Node → Trail → Nat → Value → Prop where
  | scalar {mark : Mark} {anchor : Option Nat} {tag : Option Tag} {text : String} {plain : Bool}
      {trail : Trail} {meaning : Meaning} {v : Value} (plainly : tag ≠ some .custom)
      (means : scalarMeaning tag text plain = .ok meaning)
      (value : scalarValue meaning text trail mark = .ok v) :
      StandsFor document room after (.scalar mark anchor tag text plain) trail after v
  | sequence {mark : Mark} {anchor : Option Nat} {tag : Option Tag} {items : List Node}
      {trail : Trail} {followed inner : Nat} {vs : List Value} (deep : room = inner + 1)
      (values : decodeItems (decodeValue document inner) trail 0 followed items =
        .ok (vs, after)) :
      StandsFor document room after (.sequence mark anchor tag items) trail followed (.array vs)
  | mapping {mark : Mark} {anchor : Option Nat} {tag : Option Tag} {entries : List (Node × Node)}
      {trail : Trail} {followed : Nat} {fields : Fields Value} :
      StandsFor document room after (.mapping mark anchor tag entries) trail followed
        (.object fields)

theorem standsFor_of_decodeValue {document : Document} {room followed after : Nat} {trail : Trail}
    {node : Node} {v : Value} (h : decodeValue document room trail followed node = .ok (v, after)) :
    ∃ target way between, follow document trail followed node = .ok (target, way, between) ∧
      StandsFor document room after target way between v := by
  rw [decodeValue.eq_def] at h
  obtain ⟨⟨target, way, between⟩, hfollow, hfound⟩ := Decode.bind_eq_ok h
  refine ⟨target, way, between, hfollow, ?_⟩
  cases target with
  | scalar mark anchor tag text plain =>
    dsimp only at hfound
    split_ifs at hfound with htag
    cases hmeaning : scalarMeaning tag text plain with
    | error e => simp [hmeaning] at hfound
    | ok meaning =>
      rw [hmeaning] at hfound
      obtain ⟨_, hvalue, hlast⟩ := Decode.bind_eq_ok hfound
      obtain ⟨rfl, rfl⟩ := Prod.mk.inj (Except.ok.inj hlast)
      exact .scalar htag hmeaning hvalue
  | sequence mark anchor tag items =>
    dsimp only at hfound
    split_ifs at hfound
    cases room with
    | zero => cases hfound
    | succ inner =>
      obtain ⟨⟨vs, _⟩, hvalues, hlast⟩ := Decode.bind_eq_ok hfound
      obtain ⟨rfl, rfl⟩ := Prod.mk.inj (Except.ok.inj hlast)
      exact .sequence rfl hvalues
  | mapping mark anchor tag entries =>
    dsimp only at hfound
    split_ifs at hfound
    cases room with
    | zero => cases hfound
    | succ inner =>
      obtain ⟨_, _, hlast⟩ := Decode.bind_eq_ok hfound
      obtain ⟨rfl, rfl⟩ := Prod.mk.inj (Except.ok.inj hlast)
      exact .mapping
  | «alias» | cut => cases hfound

theorem scalarValue_cases {meaning : Meaning} {text : String} {trail : Trail} {mark : Mark}
    {v : Value} (h : scalarValue meaning text trail mark = .ok v) :
    (meaning = .text ∧ v = .string text) ∨
      v = .null ∨ (∃ b, v = .bool b) ∨ ∃ n, v = .number n := by
  cases meaning with
  | null =>
    obtain rfl := Except.ok.inj h
    exact .inr (.inl rfl)
  | bool b =>
    obtain rfl := Except.ok.inj h
    exact .inr (.inr (.inl ⟨b, rfl⟩))
  | whole n =>
    rw [scalarValue] at h
    split at h
    · obtain rfl := Except.ok.inj h
      exact .inr (.inr (.inr ⟨_, rfl⟩))
    · cases h
  | double x =>
    cases x
    all_goals obtain rfl := Except.ok.inj h
    all_goals simp
  | text =>
    obtain rfl := Except.ok.inj h
    exact .inl ⟨rfl, rfl⟩

theorem not_null_of_meaning {text : String} (h : meaning text = .text) :
    (text.isEmpty || nullTexts.contains text) = false := by
  rw [Bool.eq_false_iff]
  intro hnull
  have hmeaning : meaning text = .null := by
    unfold meaning
    have hempty : text.toList.isEmpty = text.isEmpty := by
      rw [Bool.eq_iff_iff, List.isEmpty_iff, String.isEmpty_iff, String.toList_eq_nil_iff]
    simp only [hempty, hnull, if_true]
  rw [h] at hmeaning
  cases hmeaning

inductive FieldsFor (document : Document) (decode : Decoder Value) :
    Nat → List (Node × Node) → Fields Value → Prop where
  | nil {followed : Nat} : FieldsFor document decode followed [] []
  | cons {followed between after : Nat} {key value : Node} {name : String} {v : Value}
      {rest : List (Node × Node)} {fields : Fields Value}
      (named : ∀ expected,
        decodeText document expected .root followed key = .ok (name, between))
      (valued : decode (Trail.value .root key) between value = .ok (v, after))
      (others : FieldsFor document decode after rest fields) :
      FieldsFor document decode followed ((key, value) :: rest) ((name, v) :: fields)

theorem fieldsFor_of_decodeEntries {document : Document} {decode : Decoder Value}
    {entries : List (Node × Node)} {expected : String} {read fields : Fields Value}
    {followed after : Nat}
    (h : decodeEntries document decode .root expected read followed entries = .ok (fields, after)) :
    ∃ given, FieldsFor document decode followed entries given ∧
      fields = Fields.merge read given := by
  induction entries generalizing expected read followed with
  | nil =>
    obtain ⟨rfl, rfl⟩ := Prod.mk.inj (Except.ok.inj h)
    exact ⟨[], .nil, rfl⟩
  | cons entry rest ih =>
    obtain ⟨key, value⟩ := entry
    obtain ⟨⟨name, between⟩, hname, hmore⟩ := Decode.bind_eq_ok h
    obtain ⟨⟨v, last⟩, hv, hrest⟩ := Decode.bind_eq_ok hmore
    obtain ⟨given, hgiven, hfields⟩ := ih hrest
    exact ⟨(name, v) :: given, .cons (decodeText_ok hname) hv hgiven, hfields⟩

theorem FieldsFor.length_eq {document : Document} {decode : Decoder Value}
    {entries : List (Node × Node)} {fields : Fields Value} {followed : Nat}
    (h : FieldsFor document decode followed entries fields) : entries.length = fields.length := by
  induction h with
  | nil => rfl
  | cons _ _ _ ih => rw [List.length_cons, List.length_cons, ih]

theorem mappingEntries_ok {document : Document} {expected : String}
    {found : List (Node × Node) × Mark} (h : mappingEntries document expected = .ok found)
    (other : String) : mappingEntries document other = .ok found := by
  unfold mappingEntries at h ⊢
  cases hroot : document.root with
  | none => rwa [hroot] at h
  | some node =>
    rw [hroot] at h
    cases node with
    | mapping | cut => exact h
    | scalar | sequence =>
      dsimp only at h ⊢
      split_ifs at h ⊢
      exact h
    | «alias» => cases h

theorem conclude_ok {α : Type} {document : Document} {decoded found : α}
    (h : document.conclude decoded = .ok found) :
    decoded = found ∧ ∀ {β : Type} (other : β), document.conclude other = .ok other := by
  unfold Document.conclude at h ⊢
  cases hending : document.ending.fault? with
  | some fault =>
    rw [hending] at h
    cases h
  | none =>
    rw [hending] at h
    exact ⟨Except.ok.inj h, fun _ => rfl⟩

/-- A text stands for an object with these fields and has each of them once. -/
structure ReadsAs (text : String) (fields : Fields Value) : Prop where
  reads : parseObject text = .ok fields
  once : (mappingEntries (Document.parse text) "a map").map (fun found => found.1.length) =
    .ok fields.length

end PayloadMapping.Yaml

namespace PayloadMapping.Mapping

open Yaml

/-! ## Parts of mappings -/

theorem isUnnamed_of_meaning {tag : Option Tag} {text : String} {plain : Bool}
    (hcustom : tag ≠ some .custom) (h : scalarMeaning tag text plain = .ok .text) :
    isUnnamed tag text plain = .ok false := by
  unfold isUnnamed
  cases plain with
  | false => rfl
  | true =>
    have hplain : tag = none → meaning text = .text := by
      rintro rfl
      exact Except.ok.inj h
    cases tag with
    | none => exact congrArg Except.ok (not_null_of_meaning (hplain rfl))
    | some tag =>
      cases tag with
      | null =>
        unfold scalarMeaning at h
        dsimp only at h
        split_ifs at h
        cases h
      | custom => exact absurd rfl hcustom
      | bool | int | float | other | garbled => rfl

theorem decodeName_of_decodeValue {document : Document} {room followed after : Nat}
    {trail : Trail} {node : Node} {name : String} (mark : Mark)
    (h : decodeValue document room trail followed node = .ok (.string name, after)) :
    decodeName document mark trail followed node = .ok (some name, after) := by
  obtain ⟨target, way, between, hfollow, hstands⟩ := standsFor_of_decodeValue h
  unfold decodeName
  rw [hfollow]
  cases hstands with
  | scalar plainly means value =>
    obtain ⟨rfl, htext⟩ | hnull | ⟨b, hbool⟩ | ⟨n, hnumber⟩ := scalarValue_cases value
    · obtain rfl := Value.string.inj htext
      have hnamed := isUnnamed_of_meaning plainly means
      simp [bind, Except.bind, hnamed]
    · cases hnull
    · cases hbool
    · cases hnumber

theorem decodeItems_rules {document : Document} (list : Trail) (mark : Mark) {room : Nat}
    (hroom : room = depthLimit - 2) {trail : Trail} {after : Nat} :
    ∀ {items : List Node} {vs : List Value} {rules : List Rule} {position followed : Nat},
    decodeItems (decodeValue document room) trail position followed items = .ok (vs, after) →
    Rule.decodeAll vs = .ok rules →
    decodeItems (decodeRule document list mark) trail position followed items = .ok (rules, after)
  | [], vs, rules, position, followed, hvalues, hrules => by
    obtain ⟨rfl, rfl⟩ := Prod.mk.inj (Except.ok.inj hvalues)
    rw [Rule.decodeAll] at hrules
    obtain rfl := Except.ok.inj hrules
    rfl
  | item :: rest, vs, rules, position, followed, hvalues, hrules => by
    obtain ⟨⟨v, between⟩, hv, hmore⟩ := Decode.bind_eq_ok hvalues
    obtain ⟨⟨more, last⟩, hrest, hpair⟩ := Decode.bind_eq_ok hmore
    obtain ⟨rfl, rfl⟩ := Prod.mk.inj (Except.ok.inj hpair)
    rw [Rule.decodeAll] at hrules
    obtain ⟨rule, hrule, hmorerules⟩ := Decode.bind_eq_ok hrules
    obtain ⟨others, hothers, hcons⟩ := Decode.bind_eq_ok hmorerules
    obtain rfl := Except.ok.inj hcons
    have hfirst : decodeRule document list mark (.item trail position) followed item =
        .ok (rule, between) := by
      unfold decodeRule
      rw [← hroom, hv]
      simp [bind, Except.bind, hrule]
    have hlast := decodeItems_rules list mark hroom hrest hothers
    rw [decodeItems, hfirst]
    change (decodeItems _ _ _ _ _ >>= _) = _
    rw [hlast]
    rfl

theorem decodeRules_of_decodeValue {document : Document} {trail : Trail} {followed after : Nat}
    {node : Node} {v : Value} {rules : List Rule}
    (h : decodeValue document (depthLimit - 1) trail followed node = .ok (v, after))
    (hrules : Rule.decodeRules v = .ok rules) :
    decodeRules document trail followed node = .ok (rules, after) := by
  obtain ⟨items, rfl, hall⟩ := Rule.decodeRules_ok hrules
  obtain ⟨target, way, between, hfollow, hstands⟩ := standsFor_of_decodeValue h
  unfold decodeRules
  rw [hfollow]
  cases hstands with
  | scalar plainly means value =>
    obtain ⟨-, hv⟩ | hv | ⟨_, hv⟩ | ⟨_, hv⟩ := scalarValue_cases value
    all_goals cases hv
  | sequence deep values =>
    have hinner : _ = depthLimit - 2 := (Nat.succ_inj.1 deep).symm
    exact decodeItems_rules _ _ hinner values hall

/-! ## Mappings -/

theorem eq_none_of_fresh {α : Type} {part : Option α} {key : String} {v : Value}
    {fields : Fields Value} (h : part.isSome → key ∉ Fields.keys ((key, v) :: fields)) :
    part = none := by
  cases part with
  | none => rfl
  | some _ => exact absurd List.mem_cons_self (h rfl)

/-- A value that is null is no name either. -/
def NullsUnnamed (document : Document) (mark : Mark) (entries : List (Node × Node)) : Prop :=
  ∀ entry ∈ entries, ∀ (trail : Trail) (followed after : Nat),
    decodeValue document (depthLimit - 1) trail followed entry.2 = .ok (.null, after) →
      decodeName document mark trail followed entry.2 = .ok (none, after)

theorem decodeParts_of_fieldsFor {document : Document} {mark : Mark} {followed : Nat}
    {entries : List (Node × Node)} {fields : Fields Value}
    (h : FieldsFor document (decodeValue document (depthLimit - 1)) followed entries fields) :
    ∀ {name : Option (Option String)} {rules : Option (List Rule)} {mapping : Mapping},
    (Fields.keys fields).Nodup → (name.isSome → "name" ∉ Fields.keys fields) →
    (rules.isSome → "field_set" ∉ Fields.keys fields) →
    (("name", .null) ∈ fields → NullsUnnamed document mark entries) →
    decodeFields ⟨name.join, rules.getD []⟩ fields = .ok mapping →
    decodeParts document mark name rules followed entries = .ok mapping := by
  induction h with
  | nil =>
    intro name rules mapping _ _ _ _ hdecode
    obtain rfl := Except.ok.inj hdecode
    rw [decodeParts]
  | @cons followed between after key value field v rest fields named valued others ih =>
    intro name rules mapping hkeys hname hrules hnull hdecode
    obtain ⟨hfresh, hnodup⟩ := List.nodup_cons.1 hkeys
    have hothers : ("name", .null) ∈ fields → NullsUnnamed document mark rest :=
      fun h entry hentry => hnull (List.mem_cons_of_mem _ h) entry (List.mem_cons_of_mem _ hentry)
    obtain ⟨next, hnext, hrest⟩ := Decode.bind_eq_ok hdecode
    obtain ⟨⟨target, way, reached⟩, hfollow, -⟩ := Decode.bind_eq_ok (named "")
    rw [decodeParts, hfollow]
    change (decodeText document "field identifier" .root followed key >>= _) = _
    rw [named]
    -- the key is the one of the name or the one of the rules, and no entry before had it
    obtain ⟨rfl, found, hfound, rfl⟩ | ⟨rfl, found, hfound, rfl⟩ := decodeField_ok hnext
    · have hunset : name = none := eq_none_of_fresh hname
      have hdecoded : decodeName document mark (Trail.value .root key) between value =
          .ok (found, after) := by
        cases v with
        | null =>
          obtain rfl := Except.ok.inj hfound
          exact hnull List.mem_cons_self _ List.mem_cons_self _ _ _ valued
        | string s =>
          obtain rfl := Except.ok.inj hfound
          exact decodeName_of_decodeValue mark valued
        | bool | number | array | object => cases hfound
      have hlater : rules.isSome → "field_set" ∉ Fields.keys fields :=
        fun h hmem => hrules h (List.mem_cons_of_mem _ hmem)
      have htail : decodeParts document mark (some found) rules after rest = .ok mapping :=
        ih hnodup (fun _ => hfresh) hlater hothers hrest
      subst hunset
      change (decodeName document mark _ between value >>= _) = _
      rw [hdecoded]
      exact htail
    · have hunset : rules = none := eq_none_of_fresh hrules
      have hdecoded := decodeRules_of_decodeValue valued hfound
      have hlater : name.isSome → "name" ∉ Fields.keys fields :=
        fun h hmem => hname h (List.mem_cons_of_mem _ hmem)
      have htail : decodeParts document mark name (some found) after rest = .ok mapping :=
        ih hnodup hlater (fun _ => hfresh) hothers hrest
      subst hunset
      change (decodeRules document _ between value >>= _) = _
      rw [hdecoded]
      exact htail

/-- Where the value of a text has every field once and decodes, the text does. -/
theorem parseYaml_of_readsAs {text : String} {fields : Fields Value} {mapping : Mapping}
    (h : ReadsAs text fields) (hnull : ("name", .null) ∉ fields)
    (hdecode : decode (.object fields) = .ok mapping) : parseYaml text = .ok mapping := by
  obtain ⟨⟨entries, mark⟩, hentries, hmore⟩ := Decode.bind_eq_ok h.reads
  obtain ⟨⟨read, after⟩, hread, hconclude⟩ := Decode.bind_eq_ok hmore
  obtain ⟨given, hgiven, rfl⟩ := fieldsFor_of_decodeEntries hread
  obtain ⟨hmerge, hconcludes⟩ := conclude_ok hconclude
  have honce : entries.length = fields.length := by
    have honce := h.once
    rw [hentries] at honce
    exact Except.ok.inj honce
  have hlength : (Fields.merge [] given).length = ([] : Fields Value).length + given.length := by
    rw [hmerge, ← honce, hgiven.length_eq, List.length_nil, Nat.zero_add]
  obtain ⟨hkeys, -⟩ := Fields.nodup_of_length_merge hlength
  have hperm : fields.Perm given := by
    rw [← hmerge]
    exact Fields.perm_sorted hkeys
  have hgivenDecodes : decodeFields ⟨none, []⟩ given = .ok mapping :=
    decodeFields_perm hperm ((hperm.map Prod.fst).nodup_iff.2 hkeys) hdecode
  have hparts : decodeParts (Document.parse text) mark none none 0 entries = .ok mapping :=
    decodeParts_of_fieldsFor hgiven hkeys (by simp) (by simp)
      (fun hmem => absurd (hperm.mem_iff.2 hmem) hnull) hgivenDecodes
  unfold parseYaml
  change (mappingEntries (Document.parse text) "struct MappingSpec" >>= _) = _
  rw [mappingEntries_ok hentries]
  change (decodeParts _ mark none none 0 entries >>= _) = _
  rw [hparts]
  exact hconcludes mapping

theorem name_ne_null_of_toValue {mapping : Mapping} {fields : Fields Value}
    (h : mapping.toValue = .object fields) : ("name", .null) ∉ fields := by
  rw [toValue_eq] at h
  obtain rfl := Value.object.inj h
  unfold written
  cases mapping.name <;> simp

/-- Decoding undoes encoding exactly if no path is one empty segment and no default is null; nulls
as defaults of field rules do not matter to a run. -/
theorem decode_undoes_encoding (mapping : Mapping) :
    ∃ decoded, decode mapping.toValue = .ok decoded ∧
      (decoded = mapping ↔
        (∀ field ∈ Rule.fieldsAll mapping.rules, field.defaultValue ≠ some .null) ∧
          ∀ path ∈ Rule.pathsAll mapping.rules, path.segments ≠ [""]) ∧
      (∀ tree, decode tree = .ok mapping → decoded = mapping) ∧
      ((∀ path ∈ Rule.pathsAll mapping.rules, path.segments ≠ [""]) →
        ∀ (engine : Engine) (source : Value) (session : Session),
          engine.run decoded source session = engine.run mapping source session) ∧
      ∀ fields, mapping.toValue = .object fields → ReadsAs mapping.toYaml fields →
        Mapping.parse .yaml mapping.toYaml = .ok decoded := by
  have hdecoded := decode_toValue mapping
  refine ⟨mapping.canonical, hdecoded, canonical_eq_self_iff, ?_, ?_, ?_⟩
  · intro tree htree
    exact canonical_of_decode htree
  · intro hpaths engine source session
    exact engine.run_canonical hpaths source session
  · intro fields hfields hreads
    rw [hfields] at hdecoded
    have hparsed := parseYaml_of_readsAs hreads (name_ne_null_of_toValue hfields) hdecoded
    unfold Mapping.parse
    dsimp only
    rw [hparsed]
    rfl

theorem decode_undoes_encoding_orders :
    ∃ mapping fields, mapping.toValue = .object fields ∧ ReadsAs mapping.toYaml fields ∧
      Rule.fieldsAll mapping.rules ≠ [] ∧ Mapping.parse .yaml mapping.toYaml = .ok mapping := by
  let sku : FieldRule := FieldRule.copy (Path.parse "sku") (Path.parse "id")
  let mapping : Mapping :=
    ⟨some "Orders", [.loop (Path.parse "lines") (Path.parse "items") [.field sku] none]⟩
  have hvalue : mapping.toValue = .object mapping.written := toValue_eq mapping
  have hreads : ReadsAs mapping.toYaml mapping.written :=
    ⟨by decide +kernel, by decide +kernel⟩
  obtain ⟨decoded, -, hself, -, -, hparse⟩ := decode_undoes_encoding mapping
  have hdefaults : ∀ field ∈ Rule.fieldsAll mapping.rules, field.defaultValue ≠ some .null := by
    decide +kernel
  have hpaths : ∀ path ∈ Rule.pathsAll mapping.rules, path.segments ≠ [""] := by
    decide +kernel
  refine ⟨mapping, mapping.written, hvalue, hreads, by decide, ?_⟩
  rw [hparse _ hvalue hreads, hself.2 ⟨hdefaults, hpaths⟩]

/-- What is left of `x.` after its first segment has the text of the path without segments. A rule
that copies from there reads the key of the empty text, and after decoding the whole payload. -/
theorem decode_loses_empty_segment :
    let rule : FieldRule := FieldRule.copy (Path.parse "x.").rest (Path.parse "v")
    let mapping : Mapping := ⟨none, [.field rule]⟩
    let payload : Value := .object [("", .bool true)]
    let run := fun mapping : Mapping => (({} : Engine).run mapping payload {}).1
    (∀ field ∈ Rule.fieldsAll mapping.rules, field.defaultValue ≠ some .null) ∧
      ∃ decoded, decode mapping.toValue = .ok decoded ∧ decoded ≠ mapping ∧
        run mapping = .ok (.object [("v", .bool true)]) ∧
        run decoded = .ok (.object [("v", payload)]) := by
  intro rule mapping payload run
  refine ⟨by decide +kernel, mapping.canonical, decode_toValue mapping, ?_, by decide +kernel,
    by decide +kernel⟩
  intro hself
  obtain ⟨-, hpaths⟩ := canonical_eq_self_iff.1 hself
  have hsource : (Path.parse "x.").rest ∈ Rule.pathsAll mapping.rules := by decide +kernel
  exact hpaths _ hsource rfl

end PayloadMapping.Mapping
