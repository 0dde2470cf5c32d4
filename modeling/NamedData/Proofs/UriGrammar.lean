import Mathlib.Data.List.Forall2
import NamedData.Proofs.NameUris

namespace NamedData

namespace Name

variable {byte value : UInt8} {bytes rest lead : List UInt8} {place : Nat} {fault : EscapeFault}

/-- A byte is the hexadecimal digit of a value, in either case. -/
def IsDigit (byte : UInt8) (value : Nat) : Prop :=
  value < 16 ∧ (Char.ofNat byte.toNat).toLower = Nat.digitChar value

/-- What the bytes of a part stand for: an escape for the byte that its two digits make, any
other byte for itself. -/
inductive StandsFor : List UInt8 → Component → Prop
  | nothing : StandsFor [] []
  | plain {byte : UInt8} {rest : List UInt8} {component : Component} (other : byte ≠ 0x25) :
      StandsFor rest component → StandsFor (byte :: rest) (byte :: component)
  | escape {high low : UInt8} {upper lower : Nat} {rest : List UInt8} {component : Component}
      (isHigh : IsDigit high upper) (isLow : IsDigit low lower) :
      StandsFor rest component →
      StandsFor (0x25 :: high :: low :: rest) (UInt8.ofNat (upper * 16 + lower) :: component)

/-- Two digits follow a place, within the part. -/
def DigitsFollow (bytes : List UInt8) (place : Nat) : Prop :=
  ∃ high low upper lower, bytes[place + 1]? = some high ∧ bytes[place + 2]? = some low ∧
    IsDigit high upper ∧ IsDigit low lower

/-- A percent sign that begins no escape. -/
def MalformedAt (bytes : List UInt8) (place : Nat) : Prop :=
  bytes[place]? = some 0x25 ∧ ¬ DigitsFollow bytes place

/-- Every percent sign of a part is followed by two digits. -/
def WellEscaped (bytes : List UInt8) : Prop :=
  ∀ place, bytes[place]? = some 0x25 → DigitsFollow bytes place

def FirstMalformed (bytes : List UInt8) (place : Nat) : Prop :=
  MalformedAt bytes place ∧ ∀ earlier < place, ¬ MalformedAt bytes earlier

theorem wellEscaped_iff : WellEscaped bytes ↔ ∀ place, ¬ MalformedAt bytes place := by
  simp only [WellEscaped, MalformedAt, not_and, Classical.not_not]

theorem FirstMalformed.not_wellEscaped (first : FirstMalformed bytes place) :
    ¬ WellEscaped bytes := fun well => wellEscaped_iff.mp well place first.1

/-- Digits are read as the values that they have. -/
theorem hexValue?_eq_some_iff : hexValue? byte = some value ↔ IsDigit byte value.toNat := by
  have all : ∀ digit : Fin 256, ((hexValue? (UInt8.ofNat digit)).all (· < 16)) = true ∧
      ∀ number : Fin 16, hexValue? (UInt8.ofNat digit) = some (UInt8.ofNat number) ↔
        (Char.ofNat digit).toLower = Nat.digitChar number := by decide +kernel
  obtain ⟨small, digits⟩ := all ⟨byte.toNat, byte.toNat_lt⟩
  simp only [UInt8.ofNat_toNat] at small digits
  by_cases fits : value.toNat < 16
  · have same := digits ⟨value.toNat, fits⟩
    simp only [UInt8.ofNat_toNat] at same
    rw [same, IsDigit, and_iff_right fits]
  · constructor
    · intro read
      rw [read, Option.all_some, decide_eq_true_iff, UInt8.lt_iff_toNat_lt] at small
      exact absurd small fits
    · exact fun digit => absurd digit.1 fits

theorem exists_hexValue?_iff : (∃ value, hexValue? byte = some value) ↔ ∃ value, IsDigit byte value := by
  constructor
  · rintro ⟨value, read⟩
    exact ⟨value.toNat, hexValue?_eq_some_iff.mp read⟩
  · rintro ⟨value, digit⟩
    have fits : (UInt8.ofNat value).toNat = value := by
      rw [UInt8.toNat_ofNat']
      exact Nat.mod_eq_of_lt (Nat.lt_trans digit.1 (by decide))
    exact ⟨UInt8.ofNat value, hexValue?_eq_some_iff.mpr (by rw [fits]; exact digit)⟩

/-- A percent sign is no digit, so a place within an escape begins no other. -/
theorem IsDigit.ne_percent {number : Nat} (digit : IsDigit byte number) : byte ≠ 0x25 := by
  obtain ⟨value, read⟩ := exists_hexValue?_iff.mpr ⟨number, digit⟩
  rintro rfl
  have unread : hexValue? 0x25 = none := by decide
  rw [unread] at read
  cases read

theorem digitsFollow_append (lead rest : List UInt8) (place : Nat) :
    DigitsFollow (lead ++ rest) (lead.length + place) ↔ DigitsFollow rest place := by
  simp only [DigitsFollow, Nat.add_assoc, List.getElem?_append_right (Nat.le_add_right _ _),
    Nat.add_sub_cancel_left]

theorem malformedAt_append (lead rest : List UInt8) (place : Nat) :
    MalformedAt (lead ++ rest) (lead.length + place) ↔ MalformedAt rest place := by
  rw [MalformedAt, MalformedAt, digitsFollow_append,
    List.getElem?_append_right (Nat.le_add_right _ _), Nat.add_sub_cancel_left]

/-- Nothing is wrong before the rest of a part, so what is wrong with the part is what is wrong
with its rest. -/
def FineBefore (lead rest : List UInt8) : Prop :=
  ∀ place < lead.length, ¬ MalformedAt (lead ++ rest) place

theorem FineBefore.wellEscaped (fine : FineBefore lead rest) (well : WellEscaped rest) :
    WellEscaped (lead ++ rest) := by
  refine wellEscaped_iff.mpr fun place malformed => ?_
  rcases Nat.lt_or_ge place lead.length with early | late
  · exact fine place early malformed
  · obtain ⟨further, rfl⟩ := Nat.exists_eq_add_of_le late
    exact wellEscaped_iff.mp well further ((malformedAt_append lead rest further).mp malformed)

theorem FineBefore.firstMalformed (fine : FineBefore lead rest) (first : FirstMalformed rest place) :
    FirstMalformed (lead ++ rest) (lead.length + place) := by
  refine ⟨(malformedAt_append lead rest place).mpr first.1, fun earlier before malformed => ?_⟩
  rcases Nat.lt_or_ge earlier lead.length with early | late
  · exact fine earlier early malformed
  · obtain ⟨further, rfl⟩ := Nat.exists_eq_add_of_le late
    have inRest := (malformedAt_append lead rest further).mp malformed
    exact first.2 further (by omega) inRest

theorem fineBefore_plain (other : byte ≠ 0x25) (rest : List UInt8) : FineBefore [byte] rest := by
  intro place early malformed
  obtain rfl : place = 0 := by simpa using early
  exact other (Option.some.inj malformed.1)

theorem fineBefore_escape {high low : UInt8} {upper lower : Nat} (isHigh : IsDigit high upper)
    (isLow : IsDigit low lower) (rest : List UInt8) : FineBefore [0x25, high, low] rest := by
  intro place early malformed
  have within : place < 3 := early
  obtain ⟨percent, unfollowed⟩ := malformed
  match place, within with
  | 0, _ => exact unfollowed ⟨high, low, upper, lower, rfl, rfl, isHigh, isLow⟩
  | 1, _ => exact isHigh.ne_percent (Option.some.inj percent)
  | 2, _ => exact isLow.ne_percent (Option.some.inj percent)

/-- The fault of a percent sign that begins no escape: too few bytes come after it, or they
are no digits. -/
def faultAt (bytes : List UInt8) (place : Nat) : EscapeFault :=
  if bytes.length - (place + 1) < 2 then .truncated else .malformed

/-- How a part is read: as what it stands for, or with the fault of its first percent sign
that begins no escape. -/
inductive ReadAs (bytes : List UInt8) : Except EscapeFault Component → Prop
  | stands {component : Component} (well : WellEscaped bytes)
      (standsFor : StandsFor bytes component) : ReadAs bytes (.ok component)
  | fails {place : Nat} (first : FirstMalformed bytes place) :
      ReadAs bytes (.error (faultAt bytes place))

theorem ReadAs.plain {result : Except EscapeFault Component} (other : byte ≠ 0x25)
    (read : ReadAs rest result) : ReadAs (byte :: rest) (result.map (byte :: ·)) := by
  have fine := fineBefore_plain other rest
  cases read with
  | stands well standsFor => exact .stands (fine.wellEscaped well) (.plain other standsFor)
  | @fails place first =>
    have same : faultAt (byte :: rest) (1 + place) = faultAt rest place := by
      simp only [faultAt, List.length_cons]
      congr 2
      omega
    rw [Except.map, ← same]
    exact .fails (fine.firstMalformed first)

theorem ReadAs.escape {result : Except EscapeFault Component} {high low upper lower : UInt8}
    (isHigh : hexValue? high = some upper) (isLow : hexValue? low = some lower)
    (read : ReadAs rest result) :
    ReadAs (0x25 :: high :: low :: rest) (result.map ((upper * 16 + lower) :: ·)) := by
  have highDigit := hexValue?_eq_some_iff.mp isHigh
  have lowDigit := hexValue?_eq_some_iff.mp isLow
  have fine := fineBefore_escape highDigit lowDigit rest
  cases read with
  | stands well standsFor =>
    have whole : upper * 16 + lower = UInt8.ofNat (upper.toNat * 16 + lower.toNat) := by
      simp [UInt8.ofNat_add, UInt8.ofNat_mul]
    rw [Except.map, whole]
    exact .stands (fine.wellEscaped well) (.escape highDigit lowDigit standsFor)
  | @fails place first =>
    have same : faultAt (0x25 :: high :: low :: rest) (3 + place) = faultAt rest place := by
      simp only [faultAt, List.length_cons]
      congr 2
      omega
    rw [Except.map, ← same]
    exact .fails (fine.firstMalformed first)

/-- A percent sign at the beginning that begins no escape ends the reading. -/
theorem readAs_malformed (unfollowed : ¬ DigitsFollow (0x25 :: rest) 0) :
    ReadAs (0x25 :: rest) (.error (if rest.length < 2 then .truncated else .malformed)) :=
  .fails ⟨⟨rfl, unfollowed⟩, fun earlier before => absurd before (Nat.not_lt_zero earlier)⟩

theorem readAs_unescape (bytes : List UInt8) : ReadAs bytes (unescape bytes) := by
  fun_induction unescape bytes with
  | case1 => exact .stands (fun place percent => by cases percent) .nothing
  | case2 high low rest upper lower isLow isHigh component read ih
  | case3 high low rest upper lower isLow isHigh fault read ih =>
    have whole := ih.escape isHigh isLow
    rw [read] at whole
    exact whole
  | case4 high low rest undigits =>
    have unfollowed : ¬ DigitsFollow (0x25 :: high :: low :: rest) 0 := by
      rintro ⟨_, _, _, _, isHigh, isLow, highDigit, lowDigit⟩
      cases isHigh
      cases isLow
      obtain ⟨upper, readHigh⟩ := exists_hexValue?_iff.mpr ⟨_, highDigit⟩
      obtain ⟨lower, readLow⟩ := exists_hexValue?_iff.mpr ⟨_, lowDigit⟩
      exact undigits upper lower readHigh readLow
    exact readAs_malformed unfollowed
  | case5 rest short =>
    have few : rest.length < 2 := by
      match rest, short with
      | [], _ => exact Nat.zero_lt_two
      | [_], _ => exact Nat.one_lt_two
      | high :: low :: more, short => exact (short high low more rfl).elim
    have unfollowed : ¬ DigitsFollow (0x25 :: rest) 0 := by
      rintro ⟨_, low, _, _, _, isLow, _⟩
      have reaches : 2 < (0x25 :: rest).length := (List.getElem?_eq_some_iff.mp isLow).1
      rw [List.length_cons] at reaches
      omega
    have fails := readAs_malformed unfollowed
    rw [if_pos few] at fails
    exact fails
  | case6 byte rest other component read ih
  | case7 byte rest other fault read ih =>
    have whole := ih.plain other
    rw [read] at whole
    exact whole

/-- A part that may be empty is read as its bytes are. -/
theorem readPart_eq (part : List Char) : readPart part =
    (unescape (utf8 part)).mapError fun fault => ⟨fault, String.ofList part⟩ := by
  rw [readPart]
  cases unescape (utf8 part) <;> rfl

/-- How parts are read: as what those stand for that are not empty, or with the first part in
which a percent sign begins no escape. -/
inductive PartsReadAs (parts : List (List Char)) : Except UriError (List Component) → Prop
  | stand {components : List Component} (well : ∀ part ∈ parts, WellEscaped (utf8 part))
      (each : List.Forall₂ StandsFor ((parts.filter fun part => !part.isEmpty).map utf8)
        components) : PartsReadAs parts (.ok components)
  | fail {before after : List (List Char)} {part : List Char} {place : Nat}
      (split : parts = before ++ part :: after)
      (well : ∀ earlier ∈ before, WellEscaped (utf8 earlier))
      (first : FirstMalformed (utf8 part) place) :
      PartsReadAs parts (.error ⟨faultAt (utf8 part) place, String.ofList part⟩)

theorem wellEscaped_nil : WellEscaped (utf8 []) := fun place percent => by cases percent

theorem PartsReadAs.cons {part : List Char} {parts : List (List Char)} {component : Component}
    {result : Except UriError (List Component)} (written : part ≠ [])
    (well : WellEscaped (utf8 part)) (standsFor : StandsFor (utf8 part) component)
    (read : PartsReadAs parts result) :
    PartsReadAs (part :: parts) (result.map (component :: ·)) := by
  cases read with
  | stand others each =>
    refine .stand (List.forall_mem_cons.mpr ⟨well, others⟩) ?_
    rw [List.filter_cons_of_pos (by simpa using written), List.map_cons]
    exact .cons standsFor each
  | fail split others first =>
    exact .fail (congrArg (part :: ·) split) (List.forall_mem_cons.mpr ⟨well, others⟩) first

theorem PartsReadAs.cons_empty {parts : List (List Char)}
    {result : Except UriError (List Component)} (read : PartsReadAs parts result) :
    PartsReadAs ([] :: parts) result := by
  cases read with
  | stand others each => exact .stand (List.forall_mem_cons.mpr ⟨wellEscaped_nil, others⟩) each
  | fail split others first =>
    exact .fail (congrArg ([] :: ·) split) (List.forall_mem_cons.mpr ⟨wellEscaped_nil, others⟩) first

theorem partsReadAs_readParts (parts : List (List Char)) :
    PartsReadAs parts (readParts (parts.filter fun part => !part.isEmpty)) := by
  induction parts with
  | nil => exact .stand (fun part member => by cases member) .nil
  | cons part rest ih =>
    by_cases written : part = []
    · rw [written, List.filter_cons_of_neg (by simp)]
      exact ih.cons_empty
    · rw [List.filter_cons_of_pos (by simpa using written), readParts, readPart_eq]
      have read := readAs_unescape (utf8 part)
      generalize unescape (utf8 part) = result at read
      cases read with
      | stands well standsFor =>
        have whole := ih.cons written well standsFor
        generalize readParts _ = others at whole
        cases others <;> exact whole
      | fails first =>
        exact .fail rfl (List.forall_mem_nil _) first

/-- What is left of a URI once the scheme that may stand before it is taken away. -/
def pathOf (uri : List Char) : List Char :=
  if ['n', 'd', 'n', ':'] <+: uri then uri.drop 4 else uri

theorem dropScheme_eq (uri : List Char) : dropScheme uri = pathOf uri := by
  unfold dropScheme pathOf
  split
  · rw [if_pos ⟨_, rfl⟩]
    rfl
  · rename_i unschemed
    refine (if_neg fun schemed => ?_).symm
    obtain ⟨path, rfl⟩ := schemed
    exact unschemed path rfl

/-- The parts between the slashes of a URI, the empty ones among them. -/
def partsOf (uri : String) : List (List Char) := (pathOf uri.toList).splitOn '/'

theorem ofUri_eq (uri : String) : ofUri uri =
    (readParts ((partsOf uri).filter fun part => !part.isEmpty)).map Name.mk := by
  rw [ofUri, ofUriChars, dropScheme_eq, partsOf]
  cases readParts _ <;> rfl

/-- The error of a URI shows the leftmost of its parts in which a percent sign begins no
escape, as it was written, and tells whether fewer than two bytes follow the first such sign
there. -/
def BreaksAt (uri : String) (error : UriError) : Prop :=
  ∃ before part after place, partsOf uri = before ++ part :: after ∧
    (∀ earlier ∈ before, WellEscaped (utf8 earlier)) ∧ FirstMalformed (utf8 part) place ∧
    error.part = String.ofList part ∧
    (error.fault = .truncated ↔ (utf8 part).length - (place + 1) < 2)

/-- A URI is read just when every percent sign in its parts begins an escape, and then as what
its parts stand for, the empty ones left out. Otherwise it breaks at its leftmost malformed
part. -/
theorem uris_follow_the_grammar (uri : String) :
    ((∃ name, ofUri uri = .ok name) ↔ ∀ part ∈ partsOf uri, WellEscaped (utf8 part)) ∧
    (∀ name, ofUri uri = .ok name →
      List.Forall₂ StandsFor (((partsOf uri).filter fun part => !part.isEmpty).map utf8)
        name.components) ∧
    ∀ error, ofUri uri = .error error → BreaksAt uri error := by
  have read := partsReadAs_readParts (partsOf uri)
  rw [ofUri_eq]
  generalize readParts _ = result at read
  cases read with
  | @stand components well each =>
    refine ⟨iff_of_true ⟨⟨components⟩, rfl⟩ well, fun name same => ?_, fun error same => ?_⟩
    · cases same
      exact each
    · cases same
  | @fail before after part place split well first =>
    have malformed : ¬ ∀ part ∈ partsOf uri, WellEscaped (utf8 part) := by
      intro all
      refine first.not_wellEscaped (all part ?_)
      rw [split]
      exact List.mem_append_right before List.mem_cons_self
    refine ⟨iff_of_false ?_ malformed, fun name same => ?_, fun error same => ?_⟩
    · rintro ⟨name, same⟩
      cases same
    · cases same
    · cases same
      refine ⟨before, part, after, place, split, well, first, rfl, ?_⟩
      simp only [faultAt]
      split <;> simp_all

/-- The first of two malformed parts is shown, and its first bad percent sign tells the fault. -/
theorem uris_follow_the_grammar_to_the_first_fault :
    ofUri "ndn:/%61//b" = .ok ⟨[[97], [98]]⟩ ∧
      List.Forall₂ StandsFor (((partsOf "ndn:/%61//b").filter fun part => !part.isEmpty).map utf8)
        [[97], [98]] ∧
      ofUri "/%61/%zz%4/%4" = .error ⟨.malformed, "%zz%4"⟩ ∧
      BreaksAt "/%61/%zz%4/%4" ⟨.malformed, "%zz%4"⟩ := by
  have read : ofUri "ndn:/%61//b" = .ok ⟨[[97], [98]]⟩ := by
    have parsed : (ofUri "ndn:/%61//b").toOption = some ⟨[[97], [98]]⟩ := by decide +kernel
    revert parsed
    cases ofUri "ndn:/%61//b" <;> simp [Except.toOption]
  have broken : ofUri "/%61/%zz%4/%4" = .error ⟨.malformed, "%zz%4"⟩ := by
    have parsed : (((ofUri "/%61/%zz%4/%4").map fun _ => none).tryCatch
        fun error => .ok (some error)).toOption = some (some ⟨.malformed, "%zz%4"⟩) := by decide +kernel
    revert parsed
    cases ofUri "/%61/%zz%4/%4" <;> simp [Except.map, Except.tryCatch, Except.toOption]
  obtain ⟨_, reads, _⟩ := uris_follow_the_grammar "ndn:/%61//b"
  obtain ⟨_, _, breaks⟩ := uris_follow_the_grammar "/%61/%zz%4/%4"
  exact ⟨read, reads _ read, broken, breaks _ broken⟩

end Name

end NamedData
