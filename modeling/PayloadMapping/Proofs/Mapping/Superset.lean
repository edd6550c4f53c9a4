import PayloadMapping.Proofs.Mapping.Json
import PayloadMapping.Proofs.Mapping.Yaml
import PayloadMapping.Proofs.Yaml.Parts

set_option autoImplicit false

/-!
# Mappings in JSON read as YAML

YAML is meant to be a superset of JSON. A mapping that was read from JSON is read from the same
text as YAML if the text is spelled as both formats spell objects.
-/

namespace PayloadMapping.Yaml

open Json (Spells)

/-! ## Documents of shared texts -/

theorem fieldsFor_of_holds {room limit : Nat} (hroom : room ≤ limit) (document : Document)
    (followed : Nat) {entries : List (Node × Node)} {fields : Fields Value}
    (h : List.Forall₂ (HoldsEntry room) entries fields) :
    FieldsFor document (decodeValue document limit) followed entries fields := by
  induction h with
  | nil => exact .nil
  | @cons entry field _ _ hfirst _ ih =>
    obtain ⟨key, value⟩ := entry
    obtain ⟨⟨mark, rfl⟩, hvalue⟩ := hfirst
    exact .cons (fun _ => rfl) (hvalue.decodes _ _ _ _ hroom) ih

theorem ofTokens_eq {token : Token} {rest last : List Token} {named : List NamedPart}
    {parts : List (Part Nat)} (hkind : token.kind ≠ .streamEnd)
    (hnamed : Part.ofTokens (token :: rest) = (named, last))
    (hnumber : Document.number [] named = (parts, none)) :
    Document.ofTokens (token :: rest) =
      ⟨some (Node.ofParts parts), (Node.ofParts parts).anchored, Document.endingBefore last⟩ := by
  unfold Document.ofTokens
  split
  · rename_i hcons
    obtain ⟨rfl, -⟩ := List.cons.inj hcons
    exact absurd rfl hkind
  · rw [hnamed]
    dsimp only
    rw [hnumber]

theorem ofTokens_of_entries {room : Nat} {fields : Fields Value} {kinds : List TokenKind}
    {tokens : List Token} (h : TokensOf room (.entries true fields) kinds)
    (htokens : tokens.map Token.kind = .flowMappingStart :: (kinds ++ [.streamEnd])) :
    ∃ mark entries, List.Forall₂ (HoldsEntry room) entries fields ∧
      (Document.ofTokens tokens).root = some (.mapping mark none none entries) ∧
      (Document.ofTokens tokens).ending = .whole := by
  obtain ⟨⟨_, mark, stop⟩, most, rfl, rfl, hmost⟩ := List.map_eq_cons_iff.1 htokens
  obtain ⟨inner, last, rfl, hinner, hlast⟩ := List.map_eq_append_iff.1 hmost
  obtain ⟨⟨_, lastStart, lastStop⟩, rfl, rfl⟩ := List.map_eq_singleton_iff.1 hlast
  obtain ⟨parts, entries, hmakes, hholds, hparse⟩ := isParsed_of_tokens h hinner
  obtain ⟨numbered, hnumber, hfold⟩ := hmakes.mapping mark
  let ending : Token := ⟨.streamEnd, lastStart, lastStop⟩
  let tokens : List Token := ⟨.flowMappingStart, mark, stop⟩ :: (inner ++ [ending])
  have hread : Part.takeDocument tokens =
      .on (.close :: (parts.reverse ++ [.mapping mark none none])) [ending] := by
    have hsteps : 4 * tokens.length = 4 * inner.length + 7 + 1 := by
      simp only [tokens, List.length_cons, List.length_append, List.length_nil]
      omega
    change Part.takeNode defaultHandles true false (4 * tokens.length) [] tokens = _
    rw [hsteps]
    exact hparse (by omega)
  have hparts : Part.ofTokens tokens =
      (.mapping mark none none :: (parts ++ [.close]), [ending]) := by
    rw [Part.ofTokens, hread]
    simp [Reading.on]
  have hnumbered : Document.number [] (.mapping mark none none :: (parts ++ [.close])) =
      (numbered, none) := by
    have hnone := hnumber []
    rwa [List.append_nil, Document.number, List.append_nil] at hnone
  have hnode : Node.ofParts numbered = .mapping mark none none entries := by
    rw [Node.ofParts, hfold]
    rfl
  have hdocument := ofTokens_eq (by simp) hparts hnumbered
  rw [hnode] at hdocument
  exact ⟨mark, entries, hholds, congrArg Document.root hdocument,
    congrArg Document.ending hdocument⟩

end PayloadMapping.Yaml

namespace PayloadMapping.Mapping

open Yaml

theorem nullsUnnamed_of_holds {room : Nat} (hroom : room ≤ depthLimit - 1) (document : Document)
    (mark : Mark) {entries : List (Node × Node)} {fields : Fields Value}
    (h : List.Forall₂ (HoldsEntry room) entries fields) : NullsUnnamed document mark entries := by
  induction h with
  | nil => exact fun _ hmem => absurd hmem List.not_mem_nil
  | @cons entry field _ _ hfirst _ ih =>
    refine List.forall_mem_cons.2 ⟨fun trail followed after hnull => ?_, ih⟩
    obtain ⟨-, hvalue⟩ := hfirst
    have hdecoded := hvalue.decodes document trail followed _ hroom
    obtain ⟨hv, rfl⟩ := Prod.mk.inj (Except.ok.inj (hdecoded.symm.trans hnull))
    obtain ⟨place, hnode⟩ := hvalue.spelled hv
    rw [hnode]
    rfl

theorem decodeFields_of_readParts {steps : Nat} : ∀ {parts : Parts} {first : Bool}
    {fields : Fields Value} {text more : List Char} {cursor last : Json.Cursor}
    {mapping : Mapping},
    Json.Spells (Json.depthLimit - 1) (.entries first fields) text more →
    Json.afterBlanks cursor.rest = Json.afterBlanks text →
    readParts parts first cursor steps = .ok (mapping, last) →
    (Fields.keys fields ++ parts.seen).Nodup ∧
      decodeFields (ofParts parts) fields = .ok mapping := by
  induction steps with
  | zero =>
    intro parts first fields text more cursor last mapping _ _ h
    exact absurd (Json.loading_ok h) Json.not_failNext
  | succ steps ih =>
    intro parts first fields text more cursor last mapping hspells hcursor h
    rw [readParts] at h
    cases hspells with
    | noEntry close =>
      obtain ⟨next, reached, hkey, hclose⟩ :=
        Json.toKey_of_close first (hcursor.trans close)
      obtain ⟨⟨_, _⟩, hnext, hrest⟩ := Decode.bind_eq_ok h
      obtain ⟨rfl, rfl⟩ := Prod.mk.inj (Except.ok.inj ((Json.loading_ok hnext).symm.trans hkey))
      obtain ⟨_, -, hlast⟩ := Decode.bind_eq_ok hrest
      obtain ⟨rfl, -⟩ := Prod.mk.inj (Except.ok.inj hlast)
      exact ⟨parts.nodup_seen, rfl⟩
    | @entry _ _ _ next chars key after rest _ v fields gap hcomma quote means line close value
        others =>
      obtain ⟨place, hkey⟩ := Json.toKey_of_comma hcomma quote hcursor
      obtain ⟨passed, hstring⟩ := Json.readString_of_spells means place
      obtain ⟨reached, hcolon⟩ := Json.passColon_of_gap line after passed
      obtain ⟨found, hvalue⟩ := value.isRead ⟨after, reached⟩ rfl
      obtain ⟨⟨_, _⟩, hnext, hrest⟩ := Decode.bind_eq_ok h
      obtain ⟨rfl, rfl⟩ := Prod.mk.inj (Except.ok.inj ((Json.loading_ok hnext).symm.trans hkey))
      obtain ⟨⟨_, _⟩, hafter, hvalued⟩ := Decode.bind_eq_ok hrest
      obtain ⟨rfl, rfl⟩ :=
        Prod.mk.inj (Except.ok.inj ((Json.loading_ok hafter).symm.trans hstring))
      obtain ⟨⟨later, _⟩, hpart, hothers⟩ := Decode.bind_eq_ok hvalued
      obtain ⟨_, _, hcolon', hvalue', hfield, hseen⟩ := readPart_ok hpart
      obtain rfl := Except.ok.inj (hcolon'.symm.trans hcolon)
      obtain ⟨rfl, rfl⟩ := Prod.mk.inj (Except.ok.inj (hvalue.symm.trans hvalue'))
      obtain ⟨hkeys, hdecoded⟩ := ih others rfl hothers
      refine ⟨?_, ?_⟩
      · have hperm : (Fields.keys fields ++ later.seen).Perm
            (Fields.keys ((String.ofList key, v) :: fields) ++ parts.seen) :=
          (hseen.append_left _).trans List.perm_middle
        exact hperm.nodup_iff.1 hkeys
      · rw [decodeFields, hfield]
        exact hdecoded

theorem decodeFields_of_parseJson {text : String} {fields : Fields Value} {mapping : Mapping}
    (hshared : Json.IsShared text.toList fields) (h : parseJson text = .ok mapping) :
    (Fields.keys fields).Nodup ∧ decodeFields ⟨none, []⟩ fields = .ok mapping := by
  obtain ⟨before, body, after, htext, hblanks, hspells⟩ := hshared.spelled
  have hbefore : ∀ c ∈ before, Json.Cursor.isSpace c = true :=
    fun c hc => (hblanks c (List.mem_append_left _ hc)).1
  have hstart : Json.afterBlanks (Json.Cursor.start text.toList).rest = '\x7b' :: body := by
    change Json.afterBlanks text.toList = _
    rw [htext, afterBlanks_append hbefore, Json.afterBlanks_cons (by decide)]
  obtain ⟨place, hskip⟩ := Json.skipSpace_eq _ hstart
  obtain ⟨⟨found, last⟩, hfound, hmore⟩ := Decode.bind_eq_ok h
  obtain ⟨_, -, hmapping⟩ := Decode.bind_eq_ok hmore
  obtain rfl := Except.ok.inj hmapping
  unfold readMapping at hfound
  rw [hskip] at hfound
  obtain ⟨hkeys, hdecode⟩ := decodeFields_of_readParts hspells rfl hfound
  exact ⟨by rwa [show (({} : Parts).seen) = [] from rfl, List.append_nil] at hkeys, hdecode⟩

theorem parseYaml_of_isShared {text : String} {fields : Fields Value} {mapping : Mapping}
    (hshared : Json.IsShared text.toList fields) (hkeys : (Fields.keys fields).Nodup)
    (hdecode : decodeFields ⟨none, []⟩ fields = .ok mapping) : parseYaml text = .ok mapping := by
  obtain ⟨before, body, after, htext, hblanks, hspells⟩ := hshared.spelled
  have hprintable := hshared.printable
  rw [htext] at hprintable
  obtain ⟨kinds, htokens, hscan⟩ := scan_of_spells hprintable hblanks hspells
  rw [← htext] at hscan
  obtain ⟨mark, entries, hholds, hroot, hending⟩ := ofTokens_of_entries htokens hscan
  have hroom : Json.depthLimit - 1 ≤ depthLimit - 1 := by decide
  have hparts : decodeParts (Document.parse text) mark none none 0 entries = .ok mapping :=
    decodeParts_of_fieldsFor (fieldsFor_of_holds hroom _ 0 hholds) hkeys (by simp) (by simp)
      (fun _ => nullsUnnamed_of_holds hroom _ mark hholds) hdecode
  have hentries : mappingEntries (Document.parse text) "struct MappingSpec" =
      .ok (entries, mark) := by
    unfold mappingEntries Document.parse
    rw [hroot]
  have hconclude : (Document.parse text).conclude mapping = .ok mapping := by
    unfold Document.conclude Document.parse
    rw [hending]
    rfl
  unfold parseYaml
  change (mappingEntries (Document.parse text) "struct MappingSpec" >>= _) = _
  rw [hentries]
  change (decodeParts (Document.parse text) mark none none 0 entries >>= _) = _
  rw [hparts]
  exact hconclude

/-- A mapping in JSON is the same mapping in YAML where both spell it alike. -/
theorem parse_yaml_of_parse_json {text : String} {fields : Fields Value} {mapping : Mapping}
    (hshared : Json.IsShared text.toList fields) (h : Mapping.parse .json text = .ok mapping) :
    Mapping.parse .yaml text = .ok mapping := by
  have hjson : parseJson text = .ok mapping := by
    unfold Mapping.parse at h
    dsimp only at h
    cases hparsed : parseJson text with
    | error e =>
      rw [hparsed] at h
      cases h
    | ok found =>
      rw [hparsed] at h
      exact congrArg Except.ok (Except.ok.inj h)
  obtain ⟨hkeys, hdecode⟩ := decodeFields_of_parseJson hshared hjson
  unfold Mapping.parse
  dsimp only
  rw [parseYaml_of_isShared hshared hkeys hdecode]
  rfl

theorem parse_yaml_of_parse_json_orders :
    ∃ text fields mapping, Json.IsShared text.toList fields ∧
      Mapping.parse .json text = .ok mapping ∧ mapping.name = some "é" ∧
      Rule.fieldsAll mapping.rules ≠ [] ∧ Mapping.parse .yaml text = .ok mapping := by
  let rule : List Char := ['"', 't', 'o', '"', ':', '"', 'a', '"', ',', '"', 'd', 'e', 'f', 'a',
    'u', 'l', 't', '_', 'v', 'a', 'l', 'u', 'e', '"', ' ', ':', ' ', '-', '1', '.', '5', '\x7d']
  let others : List Char := [']', ',', '"', 'n', 'a', 'm', 'e', '"', ':', '"', '\\', 'u', '0',
    '0', 'e', '9', '"', '\x7d']
  let body : List Char := ['"', 'f', 'i', 'e', 'l', 'd', '_', 's', 'e', 't', '"', ':', ' ', '[',
    '\n', '\x7b'] ++ (rule ++ others)
  let text : String := String.ofList ('\x7b' :: body)
  let amount : Double := ⟨true, 3 * Nat.pow 2 1073, by decide +kernel⟩
  have hamount : Json.SpellsWord ['-', '1', '.', '5'] (.number (.double amount)) := by
    have hreads : Json.readUnsigned true ⟨['1', '.', '5'], ⟨1, 1⟩⟩ =
        .ok (.double amount, ⟨[], ⟨1, 4⟩⟩) := by decide +kernel
    refine .number (.negative hreads) ?_
    rintro x hx
    obtain rfl := Number.double.inj hx
    exact ⟨⟨'.', by simp, .inl rfl⟩, by decide +kernel⟩
  have hrule : ∃ fields, Json.Spells 124 (.entries true fields) (rule ++ others) others :=
    ⟨_, .entry [] rfl rfl (.of_plain (s := ['t', 'o']) (by decide)) (by simp)
      (by decide) (.string rfl (.of_plain (s := ['a']) (by decide)))
      (.entry [' '] rfl rfl
        (.of_plain (s := ['d', 'e', 'f', 'a', 'u', 'l', 't', '_', 'v', 'a', 'l', 'u', 'e'])
          (by decide)) (by simp [isBlank]) (by decide)
        (.word ['-', '1', '.', '5'] rfl ⟨'\x7d', _, rfl, by simp⟩ hamount)
        (.noEntry rfl))⟩
  obtain ⟨given, hgiven⟩ := hrule
  have hbody : ∃ fields, Json.Spells (Json.depthLimit - 1) (.entries true fields) body [] :=
    ⟨_, .entry [] rfl rfl
      (.of_plain (s := ['f', 'i', 'e', 'l', 'd', '_', 's', 'e', 't']) (by decide)) (by simp)
      (by decide) (.list rfl (.item rfl (.object rfl hgiven) (.noItem rfl)))
      (.entry [] rfl rfl (.of_plain (s := ['n', 'a', 'm', 'e']) (by decide)) (by simp)
        (by decide) (.string rfl (.escape (.code rfl (by decide)) .quote)) (.noEntry rfl))⟩
  obtain ⟨fields, hfields⟩ := hbody
  have hshared : Json.IsShared text.toList fields := by
    rw [String.toList_ofList]
    exact ⟨by decide, [], body, [], rfl, by simp, hfields⟩
  have hfound : (Mapping.parse .json text).map
      (fun mapping => (mapping.name, (Rule.fieldsAll mapping.rules).length)) =
        .ok (some "é", 1) := by decide +kernel
  cases hjson : Mapping.parse .json text with
  | error e =>
    rw [hjson] at hfound
    cases hfound
  | ok mapping =>
    rw [hjson] at hfound
    obtain ⟨hname, hrules⟩ := Prod.mk.inj (Except.ok.inj hfound)
    have hyaml := parse_yaml_of_parse_json hshared hjson
    refine ⟨text, fields, mapping, hshared, hjson, hname, ?_, hyaml⟩
    exact List.ne_nil_of_length_eq_add_one hrules

/-- An escape for half of a character is no escape of YAML. -/
theorem parse_yaml_refuses_surrogates :
    Mapping.parse .json "\x7b\"name\":\"\\ud83d\\ude00\"\x7d" = .ok ⟨some "😀", []⟩ ∧
      Mapping.parse .yaml "\x7b\"name\":\"\\ud83d\\ude00\"\x7d" = .error (.yaml .noYaml) :=
  ⟨rfl, rfl⟩

end PayloadMapping.Mapping
