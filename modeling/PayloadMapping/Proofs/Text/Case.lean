import PayloadMapping.Text.Case

set_option autoImplicit false

/-!
# Case mappings lead out of what they map

No run of a case table moves a code point to one that the table maps again, whether by a run or by
an expansion, and every run ends among the letters. So a letter whose mapping is one character is
mapped to a letter that is its own image. To compare whole tables, sets of code points are held as
the bits of one number.
-/

namespace PayloadMapping.Text

/-! ## Sets of code points -/

def union (sets : List Nat) : Nat := sets.foldr (fun set rest => set ||| rest) 0

def codeSet (codes : List Nat) : Nat := union (codes.map fun code => 1 <<< code)

def rangeSet (range : Nat × Nat) : Nat := (1 <<< (range.2 + 1 - range.1) - 1) <<< range.1

theorem testBit_union {sets : List Nat} {code : Nat} :
    (union sets).testBit code = true ↔ ∃ set ∈ sets, set.testBit code = true := by
  induction sets with
  | nil => simp [union]
  | cons set rest ih =>
    have hcons : union (set :: rest) = set ||| union rest := rfl
    rw [hcons, Nat.testBit_or, Bool.or_eq_true, ih]
    simp only [List.mem_cons, exists_eq_or_imp]

theorem testBit_codeSet {codes : List Nat} {code : Nat} (h : code ∈ codes) :
    (codeSet codes).testBit code = true := by
  refine testBit_union.2 ⟨1 <<< code, List.mem_map_of_mem h, ?_⟩
  simp [Nat.testBit_shiftLeft]

theorem testBit_rangeSet {range : Nat × Nat} {code : Nat} :
    (rangeSet range).testBit code = true ↔ range.1 ≤ code ∧ code ≤ range.2 := by
  rw [rangeSet, Nat.testBit_shiftLeft, Nat.one_shiftLeft, Nat.testBit_two_pow_sub_one,
    Bool.and_eq_true, decide_eq_true_eq, decide_eq_true_eq]
  omega

/-! ## Runs and tables -/

namespace CaseRun

def codes (run : CaseRun) : List Nat :=
  List.range' run.first ((run.last - run.first) / run.step + 1) run.step

def images (run : CaseRun) : List Nat :=
  run.codes.map fun (code : Nat) => ((code : Int) + run.delta).toNat

variable {run : CaseRun} {code image : Nat}

theorem mem_codes (h : run.apply? code = some image) : code ∈ run.codes := by
  unfold CaseRun.apply? at h
  split at h
  · next hrun =>
    obtain ⟨hfirst, hlast, hstep⟩ := hrun
    have hdivides := Nat.div_add_mod (code - run.first) run.step
    rw [hstep] at hdivides
    have hcount : (code - run.first) / run.step ≤ (run.last - run.first) / run.step :=
      Nat.div_le_div_right (Nat.sub_le_sub_right hlast _)
    exact List.mem_range'.2 ⟨(code - run.first) / run.step, by omega, by omega⟩
  · cases h

theorem mem_images (h : run.apply? code = some image) : image ∈ run.images := by
  have hcode := mem_codes h
  unfold CaseRun.apply? at h
  split at h
  · cases h
    exact List.mem_map_of_mem hcode
  · cases h

end CaseRun

def movedSet (expansions : List (Nat × List Nat)) (runs : List CaseRun) : Nat :=
  codeSet (expansions.map Prod.fst) ||| union (runs.map fun run => codeSet run.codes)

def imageSet (runs : List CaseRun) : Nat := union (runs.map fun run => codeSet run.images)

def letterSet : Nat := union (((0x41, 0x5A) :: (0x61, 0x7A) :: letterRanges).map rangeSet)

theorem isLetter_of_letterSet {c : Char} (h : letterSet.testBit c.toNat = true) :
    isLetter c = true := by
  obtain ⟨set, hset, hbit⟩ := testBit_union.1 h
  obtain ⟨range, hrange, rfl⟩ := List.mem_map.1 hset
  have hbounds := testBit_rangeSet.1 hbit
  rw [List.mem_cons, List.mem_cons, ← or_assoc] at hrange
  rcases hrange with hascii | hrange
  · have hall : ∀ n : Fin 128, (0x41 ≤ n ∧ n ≤ 0x5A) ∨ (0x61 ≤ n ∧ n ≤ 0x7A) →
        isLetter (Char.ofNat n) = true := by decide +kernel
    have hletter : (0x41 ≤ c.toNat ∧ c.toNat ≤ 0x5A) ∨ (0x61 ≤ c.toNat ∧ c.toNat ≤ 0x7A) := by
      rcases hascii with rfl | rfl
      · exact .inl hbounds
      · exact .inr hbounds
    have hsmall : c.toNat < 128 := by omega
    simpa only [Char.ofNat_toNat] using hall ⟨c.toNat, hsmall⟩ hletter
  · have hbeyond : ∀ range ∈ letterRanges, 0x80 ≤ range.1 := by decide +kernel
    rw [isLetter, if_neg (Nat.not_lt.2 (Nat.le_trans (hbeyond range hrange) hbounds.1))]
    refine List.any_eq_true.2 ⟨range, hrange, ?_⟩
    simpa only [Bool.and_eq_true, decide_eq_true_eq] using hbounds

/-- The case of a character by a mapping of its own for ASCII and by tables. -/
def charCase (onAscii : Char → Char) (expansions : List (Nat × List Nat)) (runs : List CaseRun)
    (c : Char) : List Char :=
  if c.toNat < 0x80 then [onAscii c] else mapCase expansions runs c

/-- The tables map nothing to what they map, nothing of several characters to one, and all letters
to letters. On ASCII letters their place is taken by a mapping that does so, too, and moves no
letter that they leave. -/
structure LeadOut (onAscii : Char → Char) (expansions : List (Nat × List Nat))
    (runs : List CaseRun) : Prop where
  several : ∀ expansion ∈ expansions, 2 ≤ expansion.2.length
  unmoved : imageSet runs &&& movedSet expansions runs = 0
  letters : imageSet runs ||| letterSet = letterSet
  valid : ∀ run ∈ runs, ∀ image ∈ run.images, image.isValidChar
  asciiImage : ∀ n : Fin 128, isLetter (Char.ofNat n) = true →
    isLetter (onAscii (Char.ofNat n)) = true ∧
      charCase onAscii expansions runs (onAscii (Char.ofNat n)) = [onAscii (Char.ofNat n)]
  asciiMoved : ∀ n : Fin 128, isLetter (Char.ofNat n) = true →
    onAscii (Char.ofNat n) ≠ Char.ofNat n →
      mapCase expansions runs (Char.ofNat n) ≠ [Char.ofNat n]

theorem leadOut_upper_lower :
    LeadOut Char.toUpper upperExpansions upperRuns ∧
      LeadOut Char.toLower lowerExpansions lowerRuns := by
  constructor
  · constructor <;> decide +kernel
  · constructor <;> decide +kernel

namespace LeadOut

variable {onAscii : Char → Char} {expansions : List (Nat × List Nat)} {runs : List CaseRun}

/-- What a character is mapped to: the codes of an expansion, which are several, the image under a
run, or the character itself. -/
theorem cases_mapCase (h : LeadOut onAscii expansions runs) (c : Char) :
    2 ≤ (mapCase expansions runs c).length ∨
      (∃ run ∈ runs, ∃ image ∈ run.images, mapCase expansions runs c = [Char.ofNat image]) ∨
      mapCase expansions runs c = [c] := by
  unfold mapCase
  split
  · next codes hlookup =>
    obtain ⟨before, after, happend, -⟩ := List.lookup_eq_some_iff.1 hlookup
    have hlength := h.several (c.toNat, codes) (by simp [happend])
    left
    rwa [List.length_map]
  · split
    · next image hfind =>
      obtain ⟨run, hrun, happly⟩ := List.exists_of_findSome?_eq_some hfind
      exact .inr (.inl ⟨run, hrun, image, CaseRun.mem_images happly, rfl⟩)
    · exact .inr (.inr rfl)

theorem toNat_image (h : LeadOut onAscii expansions runs) {run : CaseRun} (hrun : run ∈ runs)
    {image : Nat} (himage : image ∈ run.images) : (Char.ofNat image).toNat = image := by
  rw [Char.ofNat, dif_pos (h.valid run hrun image himage)]
  rfl

/-- What a run moves something to is a letter that no table moves. -/
theorem image_spec (h : LeadOut onAscii expansions runs) {run : CaseRun} (hrun : run ∈ runs)
    {image : Nat} (himage : image ∈ run.images) :
    isLetter (Char.ofNat image) = true ∧
      mapCase expansions runs (Char.ofNat image) = [Char.ofNat image] := by
  have hcode := h.toNat_image hrun himage
  have hset : (imageSet runs).testBit image = true :=
    testBit_union.2 ⟨_, List.mem_map_of_mem hrun, testBit_codeSet himage⟩
  have hletter : letterSet.testBit image = true := by
    rw [← h.letters, Nat.testBit_or, hset, Bool.true_or]
  have hunmoved : ¬(movedSet expansions runs).testBit image = true := by
    intro hmoved
    have hboth : (imageSet runs &&& movedSet expansions runs).testBit image = true := by
      rw [Nat.testBit_and, hset, hmoved, Bool.and_true]
    rw [h.unmoved, Nat.zero_testBit] at hboth
    cases hboth
  rw [movedSet, Nat.testBit_or, Bool.or_eq_true, not_or] at hunmoved
  have hlookup : expansions.lookup image = none := by
    rw [List.lookup_eq_none_iff]
    rintro expansion hmem
    refine bne_iff_ne.2 fun heq => hunmoved.1 (testBit_codeSet ?_)
    exact heq ▸ List.mem_map_of_mem hmem
  have hfind : (runs.findSome? fun other => other.apply? image) = none := by
    rw [List.findSome?_eq_none_iff]
    intro other hother
    refine Option.eq_none_iff_forall_ne_some.2 fun next hnext => hunmoved.2 ?_
    exact testBit_union.2
      ⟨_, List.mem_map_of_mem hother, testBit_codeSet (CaseRun.mem_codes hnext)⟩
  refine ⟨isLetter_of_letterSet (hcode.symm ▸ hletter), ?_⟩
  simp only [mapCase, hcode, hlookup, hfind]

theorem mapCase_image (h : LeadOut onAscii expansions runs) {c d : Char}
    (hd : mapCase expansions runs c = [d]) (hc : isLetter c = true) :
    isLetter d = true ∧ mapCase expansions runs d = [d] := by
  rcases h.cases_mapCase c with hseveral | ⟨run, hrun, image, himage, heq⟩ | heq
  · rw [hd] at hseveral
    exact absurd hseveral (by simp)
  · obtain rfl : Char.ofNat image = d := by simpa [heq] using hd
    exact h.image_spec hrun himage
  · obtain rfl : c = d := by simpa [heq] using hd
    exact ⟨hc, heq⟩

theorem charCase_ne_nil (h : LeadOut onAscii expansions runs) (c : Char) :
    charCase onAscii expansions runs c ≠ [] := by
  unfold charCase
  split
  · exact List.cons_ne_nil _ _
  · rcases h.cases_mapCase c with hseveral | ⟨_, _, _, _, heq⟩ | heq
    · exact List.ne_nil_of_length_pos (by omega)
    · simp [heq]
    · simp [heq]

theorem charCase_image (h : LeadOut onAscii expansions runs) {c d : Char}
    (hd : charCase onAscii expansions runs c = [d]) (hc : isLetter c = true) :
    isLetter d = true ∧ charCase onAscii expansions runs d = [d] := by
  by_cases hascii : c.toNat < 0x80
  · obtain rfl : onAscii c = d := by simpa [charCase, hascii] using hd
    have himage := h.asciiImage ⟨c.toNat, hascii⟩
    rw [Char.ofNat_toNat] at himage
    exact himage hc
  · rw [charCase, if_neg hascii] at hd
    have ⟨hletter, hself⟩ := h.mapCase_image hd hc
    refine ⟨hletter, ?_⟩
    unfold charCase
    split
    · next hsmall =>
      have hmoved := h.asciiMoved ⟨d.toNat, hsmall⟩
      rw [Char.ofNat_toNat] at hmoved
      have hkept : onAscii d = d :=
        Decidable.byContradiction fun hne => hmoved hletter hne hself
      rw [hkept]
    · exact hself

end LeadOut

/-! ## Upper and lower case -/

theorem upperChar_ne_nil (c : Char) : upperChar c ≠ [] := leadOut_upper_lower.1.charCase_ne_nil c

theorem lowerChar_ne_nil (c : Char) : lowerChar c ≠ [] := leadOut_upper_lower.2.charCase_ne_nil c

theorem upperChar_image {c d : Char} (hd : upperChar c = [d]) (hc : isLetter c = true) :
    isLetter d = true ∧ upperChar d = [d] := leadOut_upper_lower.1.charCase_image hd hc

theorem lowerChar_image {c d : Char} (hd : lowerChar c = [d]) (hc : isLetter c = true) :
    isLetter d = true ∧ lowerChar d = [d] := leadOut_upper_lower.2.charCase_image hd hc

end PayloadMapping.Text
