import NamedData.Name.Uri

namespace NamedData

namespace Name

variable {byte : UInt8} {component : Component} {components : List Component}

theorem utf8_append (first second : List Char) : utf8 (first ++ second) = utf8 first ++ utf8 second :=
  List.flatMap_append

theorem utf8_ne_nil {part : List Char} (written : part ≠ []) : utf8 part ≠ [] := by
  cases part with
  | nil => exact absurd rfl written
  | cons first rest =>
    rw [utf8, List.flatMap_cons]
    exact List.append_ne_nil_of_left_ne_nil String.utf8EncodeChar_ne_nil _

/-- The byte that a hexadecimal digit is written as. -/
def hexByte (value : UInt8) : UInt8 := if value < 10 then 0x30 + value else 0x37 + value

/-- A digit that is written is one byte, and reads back. -/
theorem hexDigit_spec {value : UInt8} (small : value < 16) :
    String.utf8EncodeChar (hexDigit value) = [hexByte value] ∧
      hexValue? (hexByte value) = some value ∧ hexDigit value ≠ '/' := by
  have all : ∀ digit : Fin 16,
      String.utf8EncodeChar (hexDigit (UInt8.ofNat digit)) = [hexByte (UInt8.ofNat digit)] ∧
        hexValue? (hexByte (UInt8.ofNat digit)) = some (UInt8.ofNat digit) ∧
        hexDigit (UInt8.ofNat digit) ≠ '/' := by decide
  have whole := all ⟨value.toNat, small⟩
  simpa using whole

/-- The two digits of a byte. -/
theorem nibbles (byte : UInt8) :
    byte / 16 < 16 ∧ byte % 16 < 16 ∧ byte / 16 * 16 + byte % 16 = byte := by
  have bound := byte.toNat_lt
  refine ⟨?_, ?_, ?_⟩
  · rw [UInt8.lt_iff_toNat_lt, UInt8.toNat_div]
    show byte.toNat / 16 < 16
    omega
  · rw [UInt8.lt_iff_toNat_lt, UInt8.toNat_mod]
    show byte.toNat % 16 < 16
    omega
  · apply UInt8.toNat_inj.mp
    rw [UInt8.toNat_add, UInt8.toNat_mul, UInt8.toNat_div, UInt8.toNat_mod]
    show (byte.toNat / 16 * 16 % 256 + byte.toNat % 16) % 256 = byte.toNat
    omega

/-- A byte that stands for itself is written as one, and is neither a percent sign nor a
slash. -/
theorem unreserved_spec (unreserved : isUnreserved byte = true) :
    String.utf8EncodeChar (Char.ofNat byte.toNat) = [byte] ∧ byte ≠ 0x25 ∧
      Char.ofNat byte.toNat ≠ '/' := by
  have all : ∀ number : Fin 256, isUnreserved (UInt8.ofNat number) = true →
      String.utf8EncodeChar (Char.ofNat number) = [UInt8.ofNat number] ∧
        UInt8.ofNat number ≠ 0x25 ∧ Char.ofNat number ≠ '/' := by decide +kernel
  have whole := all ⟨byte.toNat, byte.toNat_lt⟩
  simpa using whole (by simpa using unreserved)

/-- A byte other than a percent sign is read as it is. -/
theorem unescape_cons_of_ne (other : byte ≠ 0x25) (rest : List UInt8) :
    unescape (byte :: rest) = (unescape rest).map (byte :: ·) := by
  rw [unescape.eq_def]
  simp only [if_neg other]
  cases unescape rest <;> rfl

/-- Two digits after a percent sign are read as one byte. -/
theorem unescape_percent {high low upper lower : UInt8} (isUpper : hexValue? high = some upper)
    (isLower : hexValue? low = some lower) (rest : List UInt8) :
    unescape (0x25 :: high :: low :: rest) = (unescape rest).map ((upper * 16 + lower) :: ·) := by
  rw [unescape.eq_def]
  simp only [if_true, isUpper, isLower]
  cases unescape rest <;> rfl

theorem unescape_escapeByte (byte : UInt8) (rest : List UInt8) :
    unescape (utf8 (escapeByte byte) ++ rest) = (unescape rest).map (byte :: ·) := by
  rw [escapeByte]
  split
  · rename_i unreserved
    obtain ⟨written, other, _⟩ := unreserved_spec unreserved
    rw [utf8, List.flatMap_singleton, written]
    exact unescape_cons_of_ne other rest
  · obtain ⟨high, low, whole⟩ := nibbles byte
    obtain ⟨upper, readUpper, _⟩ := hexDigit_spec high
    obtain ⟨lower, readLower, _⟩ := hexDigit_spec low
    have written : utf8 ['%', hexDigit (byte / 16), hexDigit (byte % 16)] =
        [0x25, hexByte (byte / 16), hexByte (byte % 16)] := by
      rw [utf8, List.flatMap_cons, List.flatMap_cons, List.flatMap_singleton, upper, lower]
      rfl
    rw [written]
    have read := unescape_percent readUpper readLower rest
    rw [whole] at read
    exact read

/-- What is written for a component reads back as the component. -/
theorem unescape_escape (component : Component) :
    unescape (utf8 (escape component)) = .ok component := by
  induction component with
  | nil => rfl
  | cons first rest ih =>
    rw [escape, List.flatMap_cons, utf8_append, unescape_escapeByte, ← escape, ih]
    rfl

theorem slash_not_mem_escape (component : Component) : '/' ∉ escape component := by
  intro member
  obtain ⟨byte, _, written⟩ := List.mem_flatMap.mp member
  rw [escapeByte] at written
  split at written
  · rename_i unreserved
    exact (unreserved_spec unreserved).2.2 (List.mem_singleton.mp written).symm
  · obtain ⟨high, low, _⟩ := nibbles byte
    simp only [List.mem_cons, List.not_mem_nil, or_false] at written
    rcases written with percent | upper | lower
    · exact absurd percent (by decide)
    · exact (hexDigit_spec high).2.2 upper.symm
    · exact (hexDigit_spec low).2.2 lower.symm

theorem isEmpty_escape (component : Component) : (escape component).isEmpty = component.isEmpty := by
  rw [Bool.eq_iff_iff, List.isEmpty_iff, List.isEmpty_iff]
  constructor
  · intro nothing
    have read := unescape_escape component
    rw [nothing] at read
    exact (Except.ok.inj read).symm
  · rintro rfl
    rfl

theorem readPart_escape (component : Component) : readPart (escape component) = .ok component := by
  rw [readPart, unescape_escape]

theorem readParts_map_escape (components : List Component) :
    readParts (components.map escape) = .ok components := by
  induction components with
  | nil => rfl
  | cons first rest ih =>
    rw [List.map_cons, readParts, readPart_escape]
    simp only [ih]

theorem append_flatMap_slash (first : List Char) (parts : List (List Char)) :
    first ++ parts.flatMap (fun part => '/' :: part) = ['/'].intercalate (first :: parts) := by
  induction parts generalizing first with
  | nil => simp
  | cons second rest ih =>
    rw [List.intercalate_cons_cons, List.flatMap_cons, ← ih, List.cons_append, List.append_assoc,
      List.singleton_append]

/-- Slashes before parts without one split them again, behind an empty part. -/
theorem splitOn_flatMap_slash {parts : List (List Char)} (plain : ∀ part ∈ parts, '/' ∉ part) :
    (parts.flatMap fun part => '/' :: part).splitOn '/' = [] :: parts := by
  have joined := append_flatMap_slash [] parts
  rw [List.nil_append] at joined
  rw [joined, List.splitOn_intercalate]
  · rintro part (_ | ⟨_, member⟩)
    · exact List.not_mem_nil
    · exact plain part member
  · exact List.cons_ne_nil _ _

/-- A name without its empty components. -/
def withoutEmpty (name : Name) : Name := ⟨name.components.filter fun component => !component.isEmpty⟩

theorem withoutEmpty_eq_self_iff {name : Name} : name.withoutEmpty = name ↔ [] ∉ name.components := by
  rw [withoutEmpty, Name.ext_iff, List.filter_eq_self]
  constructor
  · intro full member
    cases full [] member
  · rintro none component member
    cases component with
    | nil => exact absurd member none
    | cons => rfl

/-- The parts of a written name, the empty ones left out, are its components that are not
empty. -/
theorem parts_toUriChars (name : Name) :
    (((dropScheme name.toUriChars).splitOn '/').filter fun part => !part.isEmpty) =
      name.withoutEmpty.components.map escape := by
  rw [toUriChars]
  split
  · rename_i isRoot
    rw [withoutEmpty, List.isEmpty_iff.mp isRoot]
    rfl
  · rename_i some
    have slashed : (name.components.flatMap fun component => '/' :: escape component) =
        (name.components.map escape).flatMap fun part => '/' :: part := by
      rw [List.flatMap_map]
    have unschemed (parts : List (List Char)) : dropScheme (parts.flatMap fun part => '/' :: part) =
        parts.flatMap fun part => '/' :: part := by
      cases parts <;> rfl
    rw [slashed, unschemed, splitOn_flatMap_slash]
    · have full : (fun part : List Char => !part.isEmpty) ∘ escape =
          fun component : Component => !component.isEmpty := by
        funext component
        exact congrArg not (isEmpty_escape component)
      rw [List.filter_cons_of_neg (by simp), List.filter_map, full]
      rfl
    · intro part member
      obtain ⟨component, _, rfl⟩ := List.mem_map.mp member
      exact slash_not_mem_escape component

/-- A written name reads back without its empty components. -/
theorem ofUri_toUri (name : Name) : ofUri name.toUri = .ok name.withoutEmpty := by
  rw [ofUri, toUri, String.toList_ofList, ofUriChars, parts_toUriChars, readParts_map_escape]

/-- Every byte or escape that is read gives a byte. -/
theorem unescape_ne_nil {bytes : List UInt8} (written : bytes ≠ [])
    (read : unescape bytes = .ok component) : component ≠ [] := by
  rw [unescape.eq_def] at read
  split at read
  · exact absurd rfl written
  · rename_i first rest
    split at read
    · split at read
      · split at read
        · split at read
          · cases read
            exact List.cons_ne_nil _ _
          · cases read
        · cases read
      · cases read
    · split at read
      · cases read
        exact List.cons_ne_nil _ _
      · cases read

theorem readPart_ne_nil {part : List Char} (written : part ≠ [])
    (read : readPart part = .ok component) : component ≠ [] := by
  rw [readPart] at read
  split at read
  · rename_i found
    cases read
    exact unescape_ne_nil (utf8_ne_nil written) found
  · cases read

theorem nil_not_mem_readParts {parts : List (List Char)} (written : ∀ part ∈ parts, part ≠ [])
    (read : readParts parts = .ok components) : [] ∉ components := by
  induction parts generalizing components with
  | nil =>
    cases read
    exact List.not_mem_nil
  | cons first rest ih =>
    rw [readParts] at read
    split at read
    · cases read
    · rename_i component isFirst
      split at read
      · cases read
      · rename_i others areRest
        cases read
        intro member
        rcases List.mem_cons.mp member with here | later
        · exact readPart_ne_nil (written first List.mem_cons_self) isFirst here.symm
        · exact ih (fun part listed => written part (List.mem_cons_of_mem _ listed)) areRest later

theorem nil_not_mem_ofUri {uri : String} {name : Name} (read : ofUri uri = .ok name) :
    [] ∉ name.components := by
  rw [ofUri, ofUriChars] at read
  split at read
  · rename_i components found
    cases read
    refine nil_not_mem_readParts (fun part member => ?_) found
    have full := (List.mem_filter.mp member).2
    rintro rfl
    cases full
  · cases read

/-- A name is written so that it reads back, up to its empty components, which have no
written form. What was read is written so that it reads back as it is. -/
theorem uris_read_back :
    (∀ name : Name, ofUri name.toUri = .ok name.withoutEmpty ∧
      (ofUri name.toUri = .ok name ↔ [] ∉ name.components)) ∧
    (∀ (uri : String) (name : Name), ofUri uri = .ok name → ofUri name.toUri = .ok name) ∧
    ∀ first second : Name, [] ∉ first.components → [] ∉ second.components →
      first.toUri = second.toUri → first = second := by
  have whole (name : Name) : ofUri name.toUri = .ok name ↔ [] ∉ name.components := by
    rw [ofUri_toUri, ← withoutEmpty_eq_self_iff, Except.ok.injEq]
  refine ⟨fun name => ⟨ofUri_toUri name, whole name⟩, ?_, ?_⟩
  · intro uri name read
    exact (whole name).mpr (nil_not_mem_ofUri read)
  · intro first second fullFirst fullSecond same
    have read := (whole first).mpr fullFirst
    rw [same, (whole second).mpr fullSecond] at read
    exact (Except.ok.inj read).symm

/-- The scheme, an empty part and the escape of an unreserved byte are not written again,
and a slash within a component is not taken for one between two. -/
theorem uris_read_back_in_plain :
    ofUri "ndn:/%00%61//b%20c" = .ok ⟨[[0, 97], [98, 32, 99]]⟩ ∧
      toUri ⟨[[0, 97], [98, 32, 99]]⟩ = "/%00a/b%20c" ∧
      ofUri (toUri ⟨[[0, 97], [98, 32, 99]]⟩) = .ok ⟨[[0, 97], [98, 32, 99]]⟩ ∧
      toUri ⟨[[97], [98]]⟩ ≠ toUri ⟨[[97, 47, 98]]⟩ := by
  have read : ofUri "ndn:/%00%61//b%20c" = .ok ⟨[[0, 97], [98, 32, 99]]⟩ := by
    have parsed : (ofUri "ndn:/%00%61//b%20c").toOption = some ⟨[[0, 97], [98, 32, 99]]⟩ := by
      decide +kernel
    revert parsed
    cases ofUri "ndn:/%00%61//b%20c" <;> simp [Except.toOption]
  refine ⟨read, by decide +kernel, uris_read_back.2.1 _ _ read, fun same => ?_⟩
  exact absurd (uris_read_back.2.2 _ _ (by decide) (by decide) same) (by decide)

end Name

end NamedData
