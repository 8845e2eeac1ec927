import CallPaths.Proofs.Texts
import CallPaths.Signature
import Mathlib.Data.List.TakeDrop

/-!
# Signatures that survive being written and read

A signature is written as one text, and reading cuts that text again: at the parenthesis, at the
dots, at the commas, and between package and type name by the case of the first letters.  Not every
signature comes back.  `Readable` says which ones do, and everything that reading returns is among
them, so the written form is a key for them: two readable signatures that are written alike are the
same.

The proof goes through the `Parts` of a text.  Reading accepts exactly the texts `Parts.layout` and
answers `Parts.signature`, and a signature is readable exactly if it is the answer to the parts of
its own text.

Segments consist of word characters, and what these are is left open.  Reading cuts the text rightly
as long as no dot, no opening parenthesis and no blank is one of them (`WordClass`), as it is with
`Text.isWord`.

## Key results

- `Signature.readChars?_eq_some_iff`: the texts that are read, and what is read
- `Signature.readParameters_joinWith`: parameters that come back
- `Signature.namesType_iff`: where the type name starts
- `Signature.read?_text_exact`: reading what was written
-/

namespace CallPaths.Signature

open Text

/-! ### The characters of a segment -/

/-- What reading asks of the word characters: the written form is cut at dots and at a parenthesis,
and blanks around it are dropped, so none of these stands in a word.  The commas between parameters
and the closing parenthesis do not matter, since they come behind all words. -/
structure WordClass (word : Char → Bool) : Prop where
  dot : word '.' = false
  parenthesis : word '(' = false
  blank : ∀ c, isBlank c = true → word c = false

/-- The code points of the blanks. -/
private def blankCodes : List Nat :=
  List.range' 9 5 ++ List.range' 0x2000 11 ++
    [0x20, 0x85, 0xA0, 0x1680, 0x2028, 0x2029, 0x202F, 0x205F, 0x3000]

private theorem toNat_mem_blankCodes {c : Char} (h : isBlank c = true) :
    c.toNat ∈ blankCodes := by
  simp only [isBlank, Bool.or_eq_true, Bool.and_eq_true, decide_eq_true_eq, beq_iff_eq] at h
  simp only [blankCodes, List.mem_append, List.mem_range'_1, List.mem_cons, List.not_mem_nil,
    or_false]
  omega

/-- The word characters of this library are of this kind. -/
private theorem wordClass_isWord : WordClass isWord where
  dot := by decide
  parenthesis := by decide
  blank c hblank := by
    have hcodes : ∀ n ∈ blankCodes, isWord (Char.ofNat n) = false := by decide +kernel
    have hc := hcodes c.toNat (toNat_mem_blankCodes hblank)
    rwa [Char.ofNat_toNat] at hc

variable {word : Char → Bool}

namespace WordClass

variable (hword : WordClass word)
include hword

private theorem isSegmentChar_dot : isSegmentChar word '.' = false := by
  simp [isSegmentChar, hword.dot]

private theorem isSegmentChar_parenthesis : isSegmentChar word '(' = false := by
  simp [isSegmentChar, hword.parenthesis]

/-- No blank stands in a segment. -/
private theorem isBlank_of_isSegmentChar {c : Char} (h : isSegmentChar word c = true) :
    isBlank c = false := by
  cases hblank : isBlank c with
  | false => rfl
  | true =>
    simp only [isSegmentChar, hword.blank c hblank, Bool.false_or, decide_eq_true_eq] at h
    rw [h] at hblank
    exact absurd hblank (by decide)

end WordClass

/-- A character that stands in no segment. -/
private theorem not_mem_of_isSegment {c : Char} {cs : List Char} (hc : isSegmentChar word c = false)
    (h : isSegment word cs = true) : c ∉ cs := by
  intro hmem
  have hall := List.all_eq_true.1 (Bool.and_eq_true_iff.1 h).2 c hmem
  rw [hc] at hall
  cases hall

private theorem ne_nil_of_isSegment {cs : List Char} (h : isSegment word cs = true) : cs ≠ [] := by
  rintro rfl
  cases h

/-- A name without dots: one or more word characters or dollar signs. -/
def IsName (word : Char → Bool) (x : String) : Prop :=
  x ≠ "" ∧ ∀ c ∈ x.toList, word c = true ∨ c = '$'

private theorem isName_iff {x : String} : IsName word x ↔ isSegment word x.toList = true := by
  simp [IsName, isSegment, isSegmentChar]

/-! ### Package and type name -/

/-- Whether a name starts with an upper-case letter of the ASCII range. -/
def StartsUpper (x : String) : Prop :=
  ∃ c ∈ x.toList.head?, 'A' ≤ c ∧ c ≤ 'Z'

private theorem startsUpper_iff {x : String} : StartsUpper x ↔ startsUpper x.toList = true := by
  rw [StartsUpper]
  cases x.toList with
  | nil => simp [startsUpper]
  | cons c cs => simp [startsUpper, isAsciiUpper]

/-- The type name among the segments of a qualified type. -/
inductive NamesType : List String → String → Prop
  /-- It starts at the first segment that starts with an upper-case letter. -/
  | upper {before rest : List String} {first : String} (hbefore : ∀ x ∈ before, ¬StartsUpper x)
      (hfirst : StartsUpper first) :
      NamesType (before ++ first :: rest) (joinWith "." (first :: rest))
  /-- It is the last segment alone if there is none. -/
  | last {before : List String} {last : String} (h : ∀ x ∈ before ++ [last], ¬StartsUpper x) :
      NamesType (before ++ [last]) last

private theorem dotted_map_toList (segments : List String) :
    dotted (segments.map String.toList) = joinWith "." segments := by
  simp [dotted, Function.comp_def]

private theorem dotted_append {a b : List (List Char)} (ha : a ≠ []) (hb : b ≠ []) :
    dotted (a ++ b) = dotted a ++ "." ++ dotted b := by
  rw [dotted, dotted, dotted, joinWith_eq_intercalate, joinWith_eq_intercalate,
    joinWith_eq_intercalate, List.map_append,
    String.intercalate_append_of_ne_nil (by simpa using ha) (by simpa using hb)]

private theorem splitOwner_of_upper {before rest : List (List Char)} {first : List Char}
    (hbefore : ∀ x ∈ before, startsUpper x = false) (hfirst : startsUpper first = true) :
    splitOwner (before ++ first :: rest) = (before, first :: rest) := by
  have hfind : (before ++ first :: rest).findIdx? startsUpper = some before.length := by
    rw [List.findIdx?_append, List.findIdx?_eq_none_iff.2 hbefore, List.findIdx?_cons, hfirst]
    simp
  rw [splitOwner, hfind]
  simp

private theorem splitOwner_of_none {before : List (List Char)} {last : List Char}
    (h : ∀ x ∈ before ++ [last], startsUpper x = false) :
    splitOwner (before ++ [last]) = (before, [last]) := by
  rw [splitOwner, List.findIdx?_eq_none_iff.2 h]
  simp

/-- Package and type name make up the segments. -/
private theorem splitOwner_append (segments : List (List Char)) :
    (splitOwner segments).1 ++ (splitOwner segments).2 = segments := by
  rw [splitOwner]
  split <;> exact List.take_append_drop ..

/-- The type name is not empty. -/
private theorem splitOwner_snd_ne_nil {segments : List (List Char)} (hne : segments ≠ []) :
    (splitOwner segments).2 ≠ [] := by
  rw [splitOwner]
  split
  · next i hfind =>
    obtain ⟨hlt, -⟩ := List.findIdx?_eq_some_iff_getElem.1 hfind
    exact List.drop_eq_nil_iff.not.2 (Nat.not_le.2 hlt)
  · have hpos := List.length_pos_iff.2 hne
    exact List.drop_eq_nil_iff.not.2 (by omega)

private theorem NamesType.eq_dotted {segments : List String} {name : String}
    (h : NamesType segments name) :
    name = dotted (splitOwner (segments.map String.toList)).2 := by
  have hlower : ∀ l : List String, (∀ x ∈ l, ¬StartsUpper x) →
      ∀ x ∈ l.map String.toList, startsUpper x = false := by
    intro l hl x hx
    obtain ⟨y, hy, rfl⟩ := List.mem_map.1 hx
    simpa [startsUpper_iff] using hl y hy
  cases h with
  | @upper before rest first hbefore hfirst =>
    rw [List.map_append, List.map_cons,
      splitOwner_of_upper (hlower before hbefore) (startsUpper_iff.1 hfirst), ← List.map_cons,
      dotted_map_toList]
  | @last before _ hnone =>
    have hnone := hlower _ hnone
    rw [List.map_append, List.map_singleton] at hnone ⊢
    rw [splitOwner_of_none hnone, ← List.map_singleton, dotted_map_toList]
    rfl

/-- The segments of every qualified type contain a type name. -/
private theorem exists_namesType {segments : List String} (hne : segments ≠ []) :
    ∃ name, NamesType segments name := by
  cases hfind : segments.find? fun x => startsUpper x.toList with
  | some first =>
    obtain ⟨hfirst, before, rest, rfl, hbefore⟩ := List.find?_eq_some_iff_append.1 hfind
    refine ⟨_, .upper (fun x hx => ?_) (startsUpper_iff.2 hfirst)⟩
    simpa [startsUpper_iff] using hbefore x hx
  | none =>
    have hnone := List.find?_eq_none.1 hfind
    rw [← List.dropLast_append_getLast hne] at hnone ⊢
    exact ⟨_, .last fun x hx => mt startsUpper_iff.1 (hnone x hx)⟩

/-- Reading finds the type name. -/
theorem namesType_iff {segments : List String} {name : String} (hne : segments ≠ []) :
    NamesType segments name ↔ name = dotted (splitOwner (segments.map String.toList)).2 := by
  refine ⟨NamesType.eq_dotted, fun h => ?_⟩
  obtain ⟨name', hname'⟩ := exists_namesType hne
  rwa [h, ← hname'.eq_dotted]

private theorem dotted_ne_empty {segments : List (List Char)} (hne : segments ≠ [])
    (h : ∀ x ∈ segments, isSegment word x = true) : dotted segments ≠ "" := by
  obtain ⟨first, rest, rfl⟩ := List.exists_cons_of_ne_nil hne
  have hfirst := ne_nil_of_isSegment (h first List.mem_cons_self)
  cases rest with
  | nil => simpa [dotted, joinWith] using hfirst
  | cons second rest => simp [dotted, joinWith, hfirst]

/-- A dotted name is put together from its two parts. -/
private theorem inPackage_dotted {a b : List (List Char)} (ha : ∀ x ∈ a, isSegment word x = true)
    (hb : b ≠ []) : inPackage (dotted a) (dotted b) = dotted (a ++ b) := by
  rw [inPackage]
  by_cases hne : a = []
  · subst hne
    rfl
  · rw [if_neg (dotted_ne_empty hne ha), dotted_append hne hb]

/-- Cutting the segments between package and type name loses nothing. -/
private theorem inPackage_splitOwner {segments : List (List Char)} (hne : segments ≠ [])
    (h : ∀ x ∈ segments, isSegment word x = true) :
    inPackage (dotted (splitOwner segments).1) (dotted (splitOwner segments).2) =
      dotted segments := by
  have happend := splitOwner_append segments
  have hpackage : ∀ x ∈ (splitOwner segments).1, isSegment word x = true := by
    intro x hx
    apply h
    rw [← happend]
    exact List.mem_append_left _ hx
  rw [inPackage_dotted hpackage (splitOwner_snd_ne_nil hne), happend]

/-- Where the type name is known, so is the package. -/
private theorem inPackage_right_cancel {p p' n : String} (h : inPackage p n = inPackage p' n) :
    p = p' := by
  have hlength : (inPackage p n).length = (inPackage p' n).length := congrArg String.length h
  have hlonger : ∀ q : String, (q ++ "." ++ n).length = q.length + 1 + n.length := by
    intro q
    rw [String.length_append, String.length_append]
    rfl
  -- a package makes the name longer by itself and the dot
  by_cases hp : p = "" <;> by_cases hp' : p' = ""
  · rw [hp, hp']
  · rw [inPackage, if_pos hp, inPackage, if_neg hp', hlonger] at hlength
    omega
  · rw [inPackage, if_neg hp, inPackage, if_pos hp', hlonger] at hlength
    omega
  · simpa [inPackage, hp, hp'] using h

/-! ### Parameters -/

private theorem isBlank_comma : isBlank ',' = false := by decide

/-- Reading trims the pieces between the commas; blanks alone are no parameter. -/
private theorem readParameters_eq (cs : List Char) :
    readParameters cs =
      if trimChars cs = [] then []
      else ((splitChars ',' cs).map trimChars).map String.ofList := by
  rw [readParameters]
  cases htrim : trimChars cs with
  | nil => rfl
  | cons c rest =>
    have hpieces := map_trimChars_splitChars isBlank_comma cs
    rw [htrim] at hpieces
    rw [if_neg (List.cons_ne_nil c rest), ← hpieces, List.map_map]
    rfl

/-- Parameters without commas, parentheses and blanks at their ends. -/
def IsParameter (p : String) : Prop :=
  (∀ c ∈ p.toList, c ≠ ',' ∧ c ≠ '(' ∧ c ≠ ')') ∧ trim p = p

private theorem isParameter_of_mem_readParameters {cs : List Char}
    (hcs : ∀ c ∈ cs, c ≠ '(' ∧ c ≠ ')') {p : String} (hp : p ∈ readParameters cs) :
    IsParameter p := by
  rw [readParameters_eq] at hp
  split at hp
  · cases hp
  · obtain ⟨trimmed, htrimmed, rfl⟩ := List.mem_map.1 hp
    obtain ⟨piece, hpiece, rfl⟩ := List.mem_map.1 htrimmed
    constructor
    · intro c hc
      rw [String.toList_ofList] at hc
      obtain ⟨hmem, hcomma⟩ := mem_of_mem_splitChars hpiece (mem_of_mem_trimChars hc)
      exact ⟨hcomma, hcs c hmem⟩
    · rw [trim, String.toList_ofList, trimChars_trimChars]

/-- A single empty parameter is never read. -/
private theorem readParameters_ne_empty (cs : List Char) : readParameters cs ≠ [""] := by
  rw [readParameters_eq]
  split
  · simp
  · next hne =>
    rw [List.map_map]
    intro h
    obtain ⟨piece, hpieces, hpiece⟩ := List.map_eq_singleton_iff.1 h
    -- the only piece is the whole text
    have hcs := intercalate_splitChars ',' cs
    rw [hpieces, List.intercalate_singleton] at hcs
    rw [hcs] at hpiece
    exact hne (String.ofList_eq_empty_iff.1 hpiece)

/-- The blank behind a comma does not count. -/
private theorem map_trimChars_splitChars_intercalate {pieces : List (List Char)} (hne : pieces ≠ [])
    (h : ∀ piece ∈ pieces, ',' ∉ piece) :
    (splitChars ',' ([',', ' '].intercalate pieces)).map trimChars = pieces.map trimChars := by
  induction pieces with
  | nil => exact absurd rfl hne
  | cons piece pieces ih =>
    have hpiece := splitChars_of_not_mem (h piece List.mem_cons_self)
    cases pieces with
    | nil => rw [List.intercalate_singleton, hpiece]
    | cons piece' pieces =>
      have hpieces := ih (List.cons_ne_nil _ _) fun p hp => h p (List.mem_cons_of_mem piece hp)
      rw [List.intercalate_cons_cons, List.append_assoc]
      generalize [',', ' '].intercalate (piece' :: pieces) = written at hpieces ⊢
      have hspace : ∀ c ∈ [' '], isBlank c = true := by simp [isBlank]
      have hblank : trimChars (' ' :: written) = trimChars written :=
        trimChars_append_left hspace written
      calc (splitChars ',' (piece ++ ',' :: ' ' :: written)).map trimChars
          = trimChars piece :: (splitChars ',' (' ' :: written)).map trimChars := by
            rw [splitChars_append_cons, hpiece, List.singleton_append, List.map_cons]
        _ = trimChars piece :: (splitChars ',' written).map trimChars := by
            rw [← map_trimChars_splitChars isBlank_comma, hblank,
              map_trimChars_splitChars isBlank_comma]
        _ = (piece :: piece' :: pieces).map trimChars := by
            rw [hpieces, ← List.map_cons]

private theorem no_parenthesis_joinWith {parameters : List String}
    (h : ∀ p ∈ parameters, IsParameter p) :
    ∀ c ∈ (joinWith ", " parameters).toList, c ≠ '(' ∧ c ≠ ')' := by
  have hsep : ∀ c ∈ ", ".toList, c ≠ '(' ∧ c ≠ ')' := by simp
  intro c hc
  rw [toList_joinWith] at hc
  rcases mem_of_mem_intercalate hc with hc | ⟨piece, hpiece, hc⟩
  · exact hsep c hc
  · obtain ⟨p, hp, rfl⟩ := List.mem_map.1 hpiece
    exact ((h p hp).1 c hc).2

/-- Parameters come back from their written form. -/
theorem readParameters_joinWith {parameters : List String}
    (h : ∀ p ∈ parameters, IsParameter p) (hone : parameters ≠ [""]) :
    readParameters (joinWith ", " parameters).toList = parameters := by
  by_cases hne : parameters = []
  · subst hne
    rfl
  have hpieces : (splitChars ',' (joinWith ", " parameters).toList).map trimChars =
      parameters.map String.toList := by
    rw [toList_joinWith]
    have hcomma : ∀ piece ∈ parameters.map String.toList, ',' ∉ piece := by
      intro piece hpiece hmem
      obtain ⟨p, hp, rfl⟩ := List.mem_map.1 hpiece
      exact ((h p hp).1 _ hmem).1 rfl
    refine (map_trimChars_splitChars_intercalate (by simpa using hne) hcomma).trans ?_
    rw [List.map_map]
    refine List.map_congr_left fun p hp => ?_
    have htrim := congrArg String.toList (h p hp).2
    rwa [trim, String.toList_ofList] at htrim
  have hback : (parameters.map String.toList).map String.ofList = parameters := by
    simp [Function.comp_def]
  rw [readParameters_eq, hpieces, hback]
  refine if_neg fun hblank => hone ?_
  -- nothing but blanks: then the one piece is empty
  rw [← map_trimChars_splitChars isBlank_comma, hblank] at hpieces
  rw [← hback, ← hpieces]
  rfl

/-! ### The parts of a text -/

/-- What the written form consists of. -/
structure Parts (word : Char → Bool) where
  /-- The segments of the qualified type. -/
  segments : List (List Char)
  /-- The name of the method. -/
  name : List Char
  /-- The text between the parentheses. -/
  inside : List Char
  segments_ne_nil : segments ≠ []
  isSegment_of_mem : ∀ x ∈ segments ++ [name], isSegment word x = true
  no_parenthesis : ∀ c ∈ inside, c ≠ '(' ∧ c ≠ ')'

namespace Parts

variable (p : Parts word)

/-- The text made of the parts. -/
def layout : List Char :=
  ['.'].intercalate (p.segments ++ [p.name]) ++ '(' :: (p.inside ++ [')'])

/-- The signature that is read from the parts. -/
def signature : Signature where
  package := dotted (splitOwner p.segments).1
  typeName := dotted (splitOwner p.segments).2
  method := String.ofList p.name
  parameters := readParameters p.inside

private theorem span_layout (hword : WordClass word) :
    p.layout.span (· != '(') =
      (['.'].intercalate (p.segments ++ [p.name]), '(' :: (p.inside ++ [')'])) := by
  have hhead : ∀ c ∈ ['.'].intercalate (p.segments ++ [p.name]), (c != '(') = true := by
    intro c hc
    rw [bne_iff_ne]
    rintro rfl
    rcases mem_of_mem_intercalate hc with hdot | ⟨piece, hpiece, hc⟩
    · simp at hdot
    · exact not_mem_of_isSegment hword.isSegmentChar_parenthesis
        (p.isSegment_of_mem piece hpiece) hc
  rw [layout, List.span_eq_takeWhile_dropWhile, List.takeWhile_append_of_pos hhead,
    List.dropWhile_append_of_pos hhead]
  simp

/-- Text made of parts is read. -/
private theorem readChars?_layout (hword : WordClass word) :
    readChars? word p.layout = some p.signature := by
  have hpieces : splitChars '.' (['.'].intercalate (p.segments ++ [p.name])) =
      p.segments ++ [p.name] :=
    splitChars_intercalate (by simp) fun x hx =>
      not_mem_of_isSegment hword.isSegmentChar_dot (p.isSegment_of_mem x hx)
  have hall : (p.segments ++ [p.name]).all (isSegment word) = true :=
    List.all_eq_true.2 p.isSegment_of_mem
  have hinside : p.inside.all (fun c => c != '(' && c != ')') = true :=
    List.all_eq_true.2 fun c hc => by simpa using p.no_parenthesis c hc
  have hlength : 2 ≤ (p.segments ++ [p.name]).length := by
    have hpos := List.length_pos_iff.2 p.segments_ne_nil
    rw [List.length_append, List.length_singleton]
    omega
  simp only [readChars?, p.span_layout hword, List.getLast?_concat, List.dropLast_concat, hpieces,
    hall, hinside, hlength, decide_true, Bool.and_self, if_true]
  rfl

/-- There are no blanks around text made of parts. -/
private theorem trimChars_layout (hword : WordClass word) : trimChars p.layout = p.layout := by
  apply trimChars_eq_self
  · -- the text starts with the first character of a segment
    obtain ⟨first, rest, hsegments⟩ := List.exists_cons_of_ne_nil p.segments_ne_nil
    have hfirst : isSegment word first = true :=
      p.isSegment_of_mem first (by simp [hsegments])
    obtain ⟨c, cs, rfl⟩ := List.exists_cons_of_ne_nil (ne_nil_of_isSegment hfirst)
    have hc : isSegmentChar word c = true :=
      List.all_eq_true.1 (Bool.and_eq_true_iff.1 hfirst).2 c List.mem_cons_self
    have hhead : p.layout.head? = some c := by simp [layout, hsegments]
    intro c' hc'
    rw [hhead, Option.mem_some] at hc'
    rw [← hc']
    exact hword.isBlank_of_isSegmentChar hc
  · -- and it ends with the closing parenthesis
    have hlast : p.layout.getLast? = some ')' := by
      rw [layout, ← List.cons_append, ← List.append_assoc, List.getLast?_concat]
    intro c hc
    rw [hlast, Option.mem_some] at hc
    rw [← hc]
    decide

end Parts

/-- All text that is read is made of parts. -/
private theorem exists_parts_of_readChars? {cs : List Char} {s : Signature}
    (h : readChars? word cs = some s) : ∃ p : Parts word, cs = p.layout ∧ s = p.signature := by
  rw [readChars?] at h
  split at h
  case h_2 => cases h
  case h_1 head tail hspan =>
    -- the text falls into the part before the parenthesis and the rest
    have hcs : cs = head ++ '(' :: tail := by
      rw [List.span_eq_takeWhile_dropWhile, Prod.mk.injEq] at hspan
      rw [← hspan.1, ← hspan.2, List.takeWhile_append_dropWhile]
    dsimp only at h
    split at h
    case isFalse => cases h
    case isTrue hclose =>
    rw [Bool.and_eq_true, decide_eq_true_eq] at hclose
    obtain ⟨inside, rfl⟩ := List.getLast?_eq_some_iff.1 hclose.1
    rw [List.dropLast_concat] at hclose h
    split at h
    case isFalse => cases h
    case isTrue hpieces =>
    obtain ⟨segments, name, hsplit⟩ :=
      (List.eq_nil_or_concat (splitChars '.' head)).resolve_left (splitChars_ne_nil '.' head)
    rw [List.concat_eq_append] at hsplit
    have hhead := intercalate_splitChars '.' head
    rw [hsplit] at hpieces h hhead
    rw [Bool.and_eq_true, decide_eq_true_eq, List.length_append, List.length_singleton] at hpieces
    rw [List.dropLast_concat, List.getLast?_concat] at h
    have hne : segments ≠ [] := List.length_pos_iff.1 (by omega)
    have hinside : ∀ c ∈ inside, c ≠ '(' ∧ c ≠ ')' := by simpa using hclose.2
    refine ⟨⟨segments, name, inside, hne, List.all_eq_true.1 hpieces.1, hinside⟩, ?_, ?_⟩
    · rw [hcs, ← hhead]
      rfl
    · exact (Option.some.inj h).symm

theorem readChars?_eq_some_iff (hword : WordClass word) {cs : List Char} {s : Signature} :
    readChars? word cs = some s ↔ ∃ p : Parts word, cs = p.layout ∧ s = p.signature := by
  refine ⟨exists_parts_of_readChars?, ?_⟩
  rintro ⟨p, rfl, rfl⟩
  exact p.readChars?_layout hword

private theorem readWith?_eq_ok_iff (hword : WordClass word) {t : String} {s : Signature} :
    readWith? word t = .ok s ↔
      ∃ p : Parts word, trimChars t.toList = p.layout ∧ s = p.signature := by
  rw [← readChars?_eq_some_iff hword, readWith?]
  cases readChars? word (trimChars t.toList) <;> simp

/-! ### Signatures that come back -/

/-- Which signatures come back when they are written and read. -/
structure Readable (word : Char → Bool) (s : Signature) : Prop where
  /-- The qualified type is a dotted name, and the type name starts where it can be found. -/
  owner : ∃ segments : List String, segments ≠ [] ∧ (∀ x ∈ segments, IsName word x) ∧
    s.qualifiedType = joinWith "." segments ∧ NamesType segments s.typeName
  method : IsName word s.method
  parameters : ∀ p ∈ s.parameters, IsParameter p
  /-- A single empty parameter is written as none. -/
  parameters_ne : s.parameters ≠ [""]

/-- What is read comes back. -/
private theorem Parts.readable_signature (p : Parts word) : p.signature.Readable word where
  owner := by
    have hisSegment : ∀ x ∈ p.segments, isSegment word x = true :=
      fun x hx => p.isSegment_of_mem x (List.mem_append_left _ hx)
    have hmap : (p.segments.map String.ofList).map String.toList = p.segments := by
      simp [Function.comp_def]
    have hne : p.segments.map String.ofList ≠ [] := by simpa using p.segments_ne_nil
    refine ⟨p.segments.map String.ofList, hne, ?_, ?_, ?_⟩
    · intro x hx
      obtain ⟨cs, hcs, rfl⟩ := List.mem_map.1 hx
      rw [isName_iff, String.toList_ofList]
      exact hisSegment cs hcs
    · exact inPackage_splitOwner p.segments_ne_nil hisSegment
    · rw [namesType_iff hne, hmap]
      rfl
  method := by
    rw [isName_iff]
    show isSegment word (String.ofList p.name).toList = true
    rw [String.toList_ofList]
    exact p.isSegment_of_mem p.name (by simp)
  parameters := fun _ => isParameter_of_mem_readParameters p.no_parenthesis
  parameters_ne := readParameters_ne_empty p.inside

/-- The method is one more segment behind those of the qualified type. -/
private theorem toList_text {s : Signature} {segments : List String} (hne : segments ≠ [])
    (h : s.qualifiedType = joinWith "." segments) :
    s.text.toList = ['.'].intercalate (segments.map String.toList ++ [s.method.toList]) ++
      '(' :: ((joinWith ", " s.parameters).toList ++ [')']) := by
  have hjoin : joinWith "." (segments ++ [s.method]) = s.qualifiedType ++ "." ++ s.method := by
    rw [h, joinWith_eq_intercalate, joinWith_eq_intercalate,
      String.intercalate_append_of_ne_nil hne (List.cons_ne_nil _ _),
      String.intercalate_singleton]
  have hhead := congrArg String.toList hjoin
  rw [toList_joinWith, List.map_append, List.map_singleton] at hhead
  rw [text, String.toList_append, String.toList_append, String.toList_append, ← hhead]
  simp

private theorem package_eq_dotted {s : Signature} {segments : List String} (hne : segments ≠ [])
    (hsegments : ∀ x ∈ segments.map String.toList, isSegment word x = true)
    (hqualified : s.qualifiedType = joinWith "." segments) (htype : NamesType segments s.typeName) :
    s.package = dotted (splitOwner (segments.map String.toList)).1 := by
  apply inPackage_right_cancel (n := s.typeName)
  calc inPackage s.package s.typeName
      = dotted (segments.map String.toList) := by
        rw [dotted_map_toList]
        exact hqualified
    _ = inPackage (dotted (splitOwner (segments.map String.toList)).1) s.typeName := by
        rw [htype.eq_dotted, inPackage_splitOwner (by simpa using hne) hsegments]

/-- A readable signature is the answer to the parts of its written form. -/
private theorem Readable.exists_parts {s : Signature} (h : s.Readable word) :
    ∃ p : Parts word, s.text.toList = p.layout ∧ s = p.signature := by
  obtain ⟨⟨segments, hne, hnames, hqualified, htype⟩, hmethod, hparameters, hone⟩ := h
  have hsegments : ∀ x ∈ segments.map String.toList, isSegment word x = true := by
    intro x hx
    obtain ⟨y, hy, rfl⟩ := List.mem_map.1 hx
    exact isName_iff.1 (hnames y hy)
  have hall : ∀ x ∈ segments.map String.toList ++ [s.method.toList], isSegment word x = true := by
    intro x hx
    rcases List.mem_append.1 hx with hx | hx
    · exact hsegments x hx
    · rw [List.mem_singleton.1 hx]
      exact isName_iff.1 hmethod
  refine ⟨⟨segments.map String.toList, s.method.toList, (joinWith ", " s.parameters).toList,
    by simpa using hne, hall, no_parenthesis_joinWith hparameters⟩, toList_text hne hqualified, ?_⟩
  -- package, type name, method and parameters are found again
  rw [Parts.signature]
  dsimp only
  rw [← package_eq_dotted hne hsegments hqualified htype, ← htype.eq_dotted, String.ofList_toList,
    readParameters_joinWith hparameters hone]

/-- With every class of word characters that the written form can be cut with, a signature comes
back from its written form exactly if it is readable, everything that is read is readable, and
readable signatures that are written alike are the same. -/
theorem read?_text_exact (word : Char → Bool) (hword : WordClass word) :
    (∀ s : Signature, readWith? word s.text = .ok s ↔ s.Readable word) ∧
      (∀ (t : String) (s : Signature), readWith? word t = .ok s →
        s.Readable word ∧ readWith? word s.text = .ok s) ∧
      ∀ s s' : Signature, s.Readable word → s'.Readable word → s.text = s'.text → s = s' := by
  have hreadable : ∀ t s, readWith? word t = .ok s → s.Readable word := by
    intro t s h
    obtain ⟨p, -, rfl⟩ := (readWith?_eq_ok_iff hword).1 h
    exact p.readable_signature
  have hback : ∀ s : Signature, s.Readable word → readWith? word s.text = .ok s := by
    intro s h
    obtain ⟨p, htext, hs⟩ := h.exists_parts
    refine (readWith?_eq_ok_iff hword).2 ⟨p, ?_, hs⟩
    rw [htext, p.trimChars_layout hword]
  refine ⟨fun s => ⟨hreadable s.text s, hback s⟩, ?_, ?_⟩
  · intro t s h
    exact ⟨hreadable t s h, hback s (hreadable t s h)⟩
  · intro s s' hs hs' htext
    have hread := hback s hs
    rw [htext, hback s' hs'] at hread
    exact (Except.ok.inj hread).symm

/-- The same for the word characters of this library.  They leave out a letter that a larger class
may have, and a signature with this letter comes back with the larger class only. -/
theorem read?_text_exact_isWord :
    let letter := Char.ofNat 0x31350
    let larger := fun c => isWord c || c = letter
    let s : Signature := ⟨"shop", String.ofList ['O', letter], "total", ["int"]⟩
    (WordClass isWord ∧ WordClass larger) ∧
      (∀ s : Signature, read? s.text = .ok s ↔ s.Readable isWord) ∧
      ¬ s.Readable isWord ∧ s.Readable larger := by
  intro letter larger s
  have hlarger : WordClass larger := by
    refine ⟨by decide, by decide, fun c hblank => ?_⟩
    have hother : c ≠ letter := by
      rintro rfl
      exact absurd hblank (by decide)
    simp [larger, wordClass_isWord.blank c hblank, hother]
  have hexact := (read?_text_exact isWord wordClass_isWord).1
  refine ⟨⟨wordClass_isWord, hlarger⟩, hexact, ?_, ?_⟩
  · rw [← hexact]
    decide +kernel
  · rw [← (read?_text_exact larger hlarger).1]
    decide +kernel

-- a type name that starts at the wrong segment comes back with another package
example : read? (text ⟨"", "shop.order", "total", []⟩) = .ok ⟨"shop", "order", "total", []⟩ := by
  decide +kernel

end CallPaths.Signature
