import PayloadMapping.Mapping.Json
import PayloadMapping.Proofs.Mapping.Written

set_option autoImplicit false

/-!
# Mappings read from JSON

Mappings in JSON are decoded while the text is read. What is found is what the value of the whole
text decodes to.
-/

namespace PayloadMapping.Json

theorem loading_ok {α : Type} {step : Except SyntaxError α} {found : α}
    (h : loading step = .ok found) : step = .ok found := by
  cases step with
  | error e => cases h
  | ok _ => exact congrArg Except.ok (Except.ok.inj h)

theorem not_failNext {α : Type} {cursor : Cursor} {fault : Fault} {found : α} :
    (cursor.failNext fault : Except SyntaxError α) ≠ .ok found := by
  intro h
  cases h

theorem not_wrong {α : Type} {error : DecodeError} {place : Place} {found : α} :
    (wrong error place : Except LoadError α) ≠ .ok found := by
  intro h
  cases h

theorem not_wrongType {α : Type} {expected : String} {cursor : Cursor} {found : α} :
    (wrongType expected cursor : Except LoadError α) ≠ .ok found := by
  intro h
  unfold wrongType at h
  split at h
  · exact absurd (loading_ok h) not_failNext
  · cases h
  · cases h
  · split at h <;> cases h

theorem length_skipSpace_le (cursor : Cursor) :
    cursor.skipSpace.rest.length ≤ cursor.rest.length := by
  have hskip : ∀ (cs : List Char) (place : Place),
      (Cursor.skipFrom place cs).rest.length ≤ cs.length := by
    intro cs
    induction cs with
    | nil => exact fun _ => le_refl _
    | cons c rest ih =>
      intro place
      rw [Cursor.skipFrom]
      split
      · exact (ih _).trans (Nat.le_succ _)
      · exact le_refl _
  exact hskip cursor.rest cursor.place

theorem skipSpace_skipSpace (cursor : Cursor) : cursor.skipSpace.skipSpace = cursor.skipSpace := by
  have hskip : ∀ (cs : List Char) (place : Place),
      (Cursor.skipFrom place cs).skipSpace = Cursor.skipFrom place cs := by
    intro cs
    induction cs with
    | nil => exact fun _ => rfl
    | cons c rest ih =>
      intro place
      rw [Cursor.skipFrom]
      split
      · exact ih _
      · rename_i hspace
        rw [Cursor.skipSpace, Cursor.skipFrom, if_neg hspace]
  exact hskip cursor.rest cursor.place

theorem toItem_of_closeList {cursor last : Cursor} (h : cursor.closeList = .ok last) :
    cursor.toItem false = .ok (false, cursor.skipSpace) ∧
      cursor.skipSpace.closeList = .ok last := by
  have hagain : cursor.skipSpace.closeList = cursor.closeList := by
    unfold Cursor.closeList
    rw [skipSpace_skipSpace]
  refine ⟨?_, hagain.trans h⟩
  unfold Cursor.closeList at h
  unfold Cursor.toItem
  dsimp only at h ⊢
  split at h
  · exact absurd h not_failNext
  · rename_i rest hrest
    rw [hrest]
    rfl
  · split at h <;> exact absurd h not_failNext
  · exact absurd h not_failNext

theorem length_toItem_le {first more : Bool} {cursor next : Cursor}
    (h : cursor.toItem first = .ok (more, next)) (hfirst : first = true) :
    next.rest.length ≤ cursor.rest.length := by
  subst hfirst
  unfold Cursor.toItem at h
  dsimp only at h
  split at h
  · exact absurd h not_failNext
  · obtain ⟨-, rfl⟩ := Prod.mk.inj (Except.ok.inj h)
    exact length_skipSpace_le cursor
  · obtain ⟨-, rfl⟩ := Prod.mk.inj (Except.ok.inj h)
    exact length_skipSpace_le cursor

end PayloadMapping.Json

namespace PayloadMapping.Mapping

open Json

theorem readValue_of_readName {cursor last : Cursor} {name : Option String}
    (h : readName cursor = .ok (name, last)) (room : Nat) :
    ∃ v, readValue room cursor = .ok (v, last) ∧ Decode.optional Decode.text v = .ok name := by
  unfold readName at h
  rw [readValue.eq_def]
  dsimp only at h ⊢
  split at h
  · rename_i rest hrest
    obtain ⟨after, hafter, hname⟩ := Decode.bind_eq_ok h
    obtain ⟨rfl, rfl⟩ := Prod.mk.inj (Except.ok.inj hname)
    rw [hrest]
    refine ⟨.null, ?_, rfl⟩
    change readScalar _ 'n' rest = _
    rw [readScalar, if_pos rfl, loading_ok hafter]
    rfl
  · rename_i rest hrest
    obtain ⟨⟨s, after⟩, hafter, hname⟩ := Decode.bind_eq_ok h
    obtain ⟨rfl, rfl⟩ := Prod.mk.inj (Except.ok.inj hname)
    rw [hrest]
    refine ⟨.string s, ?_, rfl⟩
    change readScalar _ '"' rest = _
    unfold readScalar
    simp only [if_neg (by decide : ¬('"' : Char) = 'n'), if_neg (by decide : ¬('"' : Char) = 't'),
      if_neg (by decide : ¬('"' : Char) = 'f'), if_neg (by decide : ¬('"' : Char) = '-'),
      if_neg (by decide : ¬Numeral.isDigit '"' = true), if_true, loading_ok hafter]
    rfl
  · exact absurd h not_wrongType

theorem readItems_of_readRuleItems {steps : Nat} :
    ∀ {read rules : List Rule} {first : Bool} {cursor last : Cursor},
    readRuleItems read first cursor steps = .ok (rules, last) →
    ∃ vs more, rules = read.reverse ++ more ∧ Rule.decodeAll vs = .ok more ∧
      ∀ values, readItems (readValue ruleDepthLimit) values first cursor steps =
        .ok (.array (values.reverse ++ vs), last) := by
  induction steps with
  | zero =>
    intro read rules first cursor last h
    exact absurd (loading_ok h) not_failNext
  | succ steps ih =>
    intro read rules first cursor last h
    rw [readRuleItems] at h
    obtain ⟨⟨more, next⟩, hnext, hrest⟩ := Decode.bind_eq_ok h
    have hitem := loading_ok hnext
    cases more with
    | false =>
      obtain ⟨closed, hclosed, hlast⟩ := Decode.bind_eq_ok hrest
      obtain ⟨rfl, rfl⟩ := Prod.mk.inj (Except.ok.inj hlast)
      refine ⟨[], [], (List.append_nil _).symm, ?_, ?_⟩
      · rw [Rule.decodeAll]
      · intro values
        rw [readItems, hitem]
        change (next.closeList >>= _) = _
        rw [loading_ok hclosed, List.append_nil]
        rfl
    | true =>
      obtain ⟨⟨v, after⟩, hv, hdecoded⟩ := Decode.bind_eq_ok hrest
      dsimp only at hdecoded
      split at hdecoded
      · rename_i rule hrule
        obtain ⟨vs, others, hrules, hothers, hitems⟩ := ih hdecoded
        refine ⟨v :: vs, rule :: others, ?_, ?_, ?_⟩
        · rw [hrules, List.reverse_cons, List.append_assoc, List.singleton_append]
        · rw [Rule.decodeAll, hrule]
          change (Rule.decodeAll vs >>= _) = _
          rw [hothers]
          rfl
        · intro values
          have hlater := hitems (v :: values)
          rw [List.reverse_cons, List.append_assoc, List.singleton_append] at hlater
          rw [readItems, hitem]
          change (readValue ruleDepthLimit next >>= _) = _
          rw [loading_ok hv]
          exact hlater
      · exact absurd hdecoded not_wrong

theorem readValue_of_readRules {cursor last : Cursor} {rules : List Rule}
    (h : readRules cursor = .ok (rules, last)) :
    ∃ v, readValue (depthLimit - 1) cursor = .ok (v, last) ∧ Rule.decodeRules v = .ok rules := by
  unfold readRules at h
  rw [readValue.eq_def]
  dsimp only at h ⊢
  split at h
  · rename_i rest hrest
    obtain ⟨vs, more, rfl, hdecoded, hitems⟩ := readItems_of_readRuleItems h
    rw [hrest]
    refine ⟨.array vs, hitems [], ?_⟩
    rw [Rule.decodeRules]
    exact hdecoded
  · exact absurd h not_wrongType

def Parts.seen (parts : Parts) : List String :=
  (parts.name.map fun _ => "name").toList ++ (parts.rules.map fun _ => "field_set").toList

theorem Parts.nodup_seen (parts : Parts) : parts.seen.Nodup := by
  unfold seen
  cases parts.name <;> cases parts.rules <;> simp

theorem readPart_ok {parts next : Parts} {key : String} {cursor last : Cursor}
    (h : readPart parts key cursor = .ok (next, last)) :
    ∃ after v, cursor.passColon = .ok after ∧ readValue (depthLimit - 1) after = .ok (v, last) ∧
      decodeField (ofParts parts) key v = .ok (ofParts next) ∧
      next.seen.Perm (key :: parts.seen) := by
  obtain ⟨name, rules⟩ := parts
  unfold readPart at h
  split_ifs at h with hname hthere hrules hthere
  · exact absurd h not_wrong
  · obtain ⟨after, hafter, hmore⟩ := Decode.bind_eq_ok h
    obtain ⟨⟨found, reached⟩, hfound, hnext⟩ := Decode.bind_eq_ok hmore
    obtain ⟨rfl, rfl⟩ := Prod.mk.inj (Except.ok.inj hnext)
    obtain ⟨v, hv, hdecoded⟩ := readValue_of_readName hfound (depthLimit - 1)
    subst hname
    obtain rfl : name = none := by simpa using hthere
    refine ⟨after, v, loading_ok hafter, hv, decodeField_name hdecoded _, ?_⟩
    exact .refl _
  · exact absurd h not_wrong
  · obtain ⟨after, hafter, hmore⟩ := Decode.bind_eq_ok h
    obtain ⟨⟨found, reached⟩, hfound, hnext⟩ := Decode.bind_eq_ok hmore
    obtain ⟨rfl, rfl⟩ := Prod.mk.inj (Except.ok.inj hnext)
    obtain ⟨v, hv, hdecoded⟩ := readValue_of_readRules hfound
    subst hrules
    obtain rfl : rules = none := by simpa using hthere
    refine ⟨after, v, loading_ok hafter, hv, decodeField_rules hdecoded _, ?_⟩
    cases name with
    | none => exact .refl _
    | some _ => exact .swap _ _ _
  · exact absurd h not_wrong

theorem readFields_of_readParts {steps : Nat} :
    ∀ {parts : Parts} {first : Bool} {cursor last : Cursor} {mapping : Mapping},
    readParts parts first cursor steps = .ok (mapping, last) →
    ∃ given : Fields Value, (Fields.keys given ++ parts.seen).Nodup ∧
      decodeFields (ofParts parts) given = .ok mapping ∧
      ∀ read, readFields (readValue (depthLimit - 1)) read first cursor steps =
        .ok (.object (Fields.merge read given), last) := by
  induction steps with
  | zero =>
    intro parts first cursor last mapping h
    exact absurd (loading_ok h) not_failNext
  | succ steps ih =>
    intro parts first cursor last mapping h
    rw [readParts] at h
    obtain ⟨⟨more, next⟩, hnext, hrest⟩ := Decode.bind_eq_ok h
    have hkey := loading_ok hnext
    cases more with
    | false =>
      obtain ⟨closed, hclosed, hlast⟩ := Decode.bind_eq_ok hrest
      obtain ⟨rfl, rfl⟩ := Prod.mk.inj (Except.ok.inj hlast)
      refine ⟨[], parts.nodup_seen, rfl, ?_⟩
      intro read
      rw [readFields, hkey]
      change (next.closeObject >>= _) = _
      rw [loading_ok hclosed]
      rfl
    | true =>
      obtain ⟨⟨key, after⟩, hafter, hvalue⟩ := Decode.bind_eq_ok hrest
      obtain ⟨⟨found, reached⟩, hpart, hothers⟩ := Decode.bind_eq_ok hvalue
      obtain ⟨colon, v, hcolon, hv, hfield, hseen⟩ := readPart_ok hpart
      obtain ⟨given, hkeys, hdecoded, hfields⟩ := ih hothers
      refine ⟨(key, v) :: given, ?_, ?_, ?_⟩
      · have hperm : (Fields.keys given ++ found.seen).Perm
            (Fields.keys ((key, v) :: given) ++ parts.seen) :=
          (hseen.append_left _).trans List.perm_middle
        exact hperm.nodup_iff.1 hkeys
      · rw [decodeFields, hfield]
        exact hdecoded
      · intro read
        have hlater := hfields (read.insert key v)
        rw [readFields, hkey]
        change (readString next >>= _) = _
        rw [loading_ok hafter]
        change (after.passColon >>= _) = _
        rw [hcolon]
        change (readValue (depthLimit - 1) colon >>= _) = _
        rw [hv]
        exact hlater

theorem two_le_length_of_readName {cursor last : Cursor} {name : Option String}
    (h : readName cursor = .ok (name, last)) : 2 ≤ cursor.rest.length := by
  refine le_trans ?_ (length_skipSpace_le cursor)
  unfold readName at h
  dsimp only at h
  split at h
  · rename_i rest hrest
    rw [hrest]
    cases rest with
    | nil => cases h
    | cons c more => simp
  · rename_i rest hrest
    rw [hrest]
    cases rest with
    | nil => cases h
    | cons c more => simp
  · exact absurd h not_wrongType

theorem readItems_of_readListed {cursor last : Cursor} {mapping : Mapping}
    (h : readListed cursor = .ok (mapping, last)) :
    ∃ vs, readItems (readValue (depthLimit - 1)) [] true cursor (cursor.rest.length + 1) =
        .ok (.array vs, last) ∧
      decode (.array vs) = .ok mapping := by
  obtain ⟨⟨more, next⟩, hnext, hrest⟩ := Decode.bind_eq_ok h
  have hitem := loading_ok hnext
  cases more with
  | false =>
    obtain ⟨closed, hclosed, hlast⟩ := Decode.bind_eq_ok hrest
    obtain ⟨rfl, rfl⟩ := Prod.mk.inj (Except.ok.inj hlast)
    refine ⟨[], ?_, rfl⟩
    rw [readItems, hitem]
    change (next.closeList >>= _) = _
    rw [loading_ok hclosed]
    rfl
  | true =>
    obtain ⟨⟨name, after⟩, hname, hmore⟩ := Decode.bind_eq_ok hrest
    obtain ⟨v, hv, hdecoded⟩ := readValue_of_readName hname (depthLimit - 1)
    -- the name takes two characters, so that there are steps for both parts and the bracket
    obtain ⟨steps, hsteps⟩ : ∃ steps, cursor.rest.length + 1 = steps + 3 := by
      have hlong := (two_le_length_of_readName hname).trans (length_toItem_le hitem rfl)
      exact ⟨cursor.rest.length - 2, by omega⟩
    obtain ⟨⟨second, reached⟩, hsecond, hend⟩ := Decode.bind_eq_ok hmore
    rw [hsteps, readItems, hitem]
    change ∃ vs, (readValue (depthLimit - 1) next >>= _) = _ ∧ _
    rw [hv]
    change ∃ vs, readItems _ [v] false after (steps + 2) = _ ∧ _
    rw [readItems, loading_ok hsecond]
    cases second with
    | false =>
      obtain ⟨closed, hclosed, hlast⟩ := Decode.bind_eq_ok hend
      obtain ⟨rfl, rfl⟩ := Prod.mk.inj (Except.ok.inj hlast)
      refine ⟨[v], ?_, ?_⟩
      · change (reached.closeList >>= _) = _
        rw [loading_ok hclosed]
        rfl
      · change (decodeField _ "name" v >>= _) >>= _ = _
        rw [decodeField_name hdecoded]
        rfl
    | true =>
      obtain ⟨⟨rules, passed⟩, hrules, hlast⟩ := Decode.bind_eq_ok hend
      obtain ⟨w, hw, hdecodedRules⟩ := readValue_of_readRules hrules
      obtain ⟨closed, hclosed, hpair⟩ := Decode.bind_eq_ok hlast
      obtain ⟨rfl, rfl⟩ := Prod.mk.inj (Except.ok.inj hpair)
      obtain ⟨hnone, hagain⟩ := toItem_of_closeList (loading_ok hclosed)
      refine ⟨[v, w], ?_, ?_⟩
      · change (readValue (depthLimit - 1) reached >>= _) = _
        rw [hw]
        change readItems _ [w, v] false passed (steps + 1) = _
        rw [readItems, hnone]
        change (passed.skipSpace.closeList >>= _) = _
        rw [hagain]
        rfl
      · change (decodeField _ "name" v >>= _) >>= _ = _
        rw [decodeField_name hdecoded]
        change (decodeField _ "field_set" w >>= _) >>= _ = _
        rw [decodeField_rules hdecodedRules]
        rfl

theorem readMapping_ok {cursor last : Cursor} {mapping : Mapping}
    (h : readMapping cursor = .ok (mapping, last)) :
    ∃ tree, readValue depthLimit cursor = .ok (tree, last) ∧ decode tree = .ok mapping := by
  unfold readMapping at h
  rw [readValue.eq_def]
  dsimp only at h ⊢
  split at h
  · rename_i rest hrest
    obtain ⟨vs, hitems, hdecoded⟩ := readItems_of_readListed h
    rw [hrest]
    exact ⟨.array vs, hitems, hdecoded⟩
  · rename_i rest hrest
    obtain ⟨given, hkeys, hdecoded, hfields⟩ := readFields_of_readParts h
    have hnodup : (Fields.keys given).Nodup := by
      rwa [show (({} : Parts).seen) = [] from rfl, List.append_nil] at hkeys
    rw [hrest]
    refine ⟨.object (Fields.sorted given), hfields [], ?_⟩
    exact decodeFields_perm (Fields.perm_sorted hnodup).symm hnodup hdecoded
  · exact absurd h not_wrongType

/-- A mapping read from JSON is what the value of the text decodes to. -/
theorem decode_of_parseJson {text : String} {mapping : Mapping}
    (h : parseJson text = .ok mapping) :
    ∃ tree, Json.parse text = .ok tree ∧ decode tree = .ok mapping := by
  obtain ⟨⟨found, last⟩, hfound, hmore⟩ := Decode.bind_eq_ok h
  obtain ⟨_, hend, hmapping⟩ := Decode.bind_eq_ok hmore
  obtain rfl := Except.ok.inj hmapping
  obtain ⟨tree, htree, hdecoded⟩ := readMapping_ok hfound
  refine ⟨tree, ?_, hdecoded⟩
  unfold Json.parse
  rw [htree]
  change (last.expectEnd >>= _) = _
  rw [loading_ok hend]
  rfl

end PayloadMapping.Mapping
