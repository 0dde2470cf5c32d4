import NamedData.Packet.Format
import NamedData.Proofs.NameUris

namespace NamedData

namespace Document

variable {α β : Type} {entries : List (String × Document)} {names : List String} {name : String}
  {document : Document}

theorem eraseDups_of_nodup (apart : names.Nodup) : names.eraseDups = names := by
  induction names with
  | nil => rfl
  | cons first rest ih =>
    obtain ⟨new, others⟩ := List.nodup_cons.mp apart
    have kept : (rest.filter fun name => !name == first) = rest := by
      refine List.filter_eq_self.mpr fun name member => ?_
      have different : name ≠ first := fun same => new (same ▸ member)
      simpa using different
    rw [List.eraseDups_cons, kept, ih others]

/-- A table of a record's members and no others, none of them twice, is taken apart as it
stands. -/
theorem members?_table (known : ∀ entry ∈ entries, entry.1 ∈ names)
    (apart : (entries.map (·.1)).Nodup) (surplus : Bool) :
    (table entries).members? surplus names = some ⟨false, entries⟩ := by
  have all : (entries.filter fun entry => names.contains entry.1) = entries :=
    List.filter_eq_self.mpr fun entry member => by simpa using known entry member
  simp only [members?, all, eraseDups_of_nodup apart, List.length_map, if_true]

namespace Members

theorem find?_of_mem (apart : (entries.map (·.1)).Nodup) (member : (name, document) ∈ entries) :
    find? ⟨false, entries⟩ name = some document := by
  obtain ⟨before, after, split⟩ := List.append_of_mem member
  rw [split, List.map_append, List.map_cons] at apart
  obtain ⟨_, _, distinct⟩ := List.nodup_append.mp apart
  refine List.lookup_eq_some_iff.mpr ⟨before, after, split, fun entry earlier => ?_⟩
  have different := distinct entry.1 (List.mem_map_of_mem earlier) name List.mem_cons_self
  simpa using Ne.symm different

theorem find?_of_absent (absent : name ∉ entries.map (·.1)) :
    find? ⟨false, entries⟩ name = none := by
  refine List.lookup_eq_none_iff.mpr fun entry member => ?_
  have different : name ≠ entry.1 := fun same => absent (same ▸ List.mem_map_of_mem member)
  simpa using different

theorem required_of_mem {read : Document → Option α} {value : α}
    (apart : (entries.map (·.1)).Nodup) (member : (name, document) ∈ entries)
    (reads : read document = some value) : required ⟨false, entries⟩ name read = some value := by
  rw [required, find?_of_mem apart member, Option.bind_some, reads]

theorem optionalInTable_of_mem {read : Document → Option α} {value : Option α}
    (apart : (entries.map (·.1)).Nodup) (member : (name, document) ∈ entries)
    (reads : readOptional read document = some value) :
    optionalInTable ⟨false, entries⟩ name read = some value := by
  simp only [optionalInTable, find?_of_mem apart member, reads]

theorem optional_of_mem {read : Document → Option α} {value : Option α}
    (apart : (entries.map (·.1)).Nodup) (member : (name, document) ∈ entries)
    (reads : readOptional read document = some value) :
    optional ⟨false, entries⟩ name read = some value := by
  simp only [optional, withDefault, find?_of_mem apart member, reads]

theorem optional_of_absent {read : Document → Option α} (absent : name ∉ entries.map (·.1)) :
    optional ⟨false, entries⟩ name read = some none := by
  simp only [optional, withDefault, find?_of_absent absent]

/-- What is written or left empty is read back. -/
theorem readOptional_ofOption {read : Document → Option β} {write : α → Document} {view : α → β}
    (reads : ∀ value, read (write value) = some (view value)) (nonempty : ∀ value, write value ≠ null)
    (value : Option α) :
    readOptional read (ofOption write value) = some (value.map view) := by
  cases value with
  | none => rfl
  | some value =>
    rw [ofOption, readOptional, reads]
    · rfl
    · exact nonempty value

end Members

theorem natural?_integer {limit count : Nat} (within : count ≤ limit) :
    (integer count).natural? limit = some count := by
  have range : (0 : Int) ≤ count ∧ (count : Int) ≤ limit := by omega
  rw [natural?, if_pos range, Int.toNat_natCast]

theorem natural?_byte (byte : UInt8) : (integer byte.toNat).natural? 255 = some byte.toNat :=
  natural?_integer (Nat.le_of_lt_succ byte.toNat_lt)

theorem listOf?_map {read : Document → Option β} {write : α → Document} {view : α → β}
    (reads : ∀ value, read (write value) = some (view value)) (values : List α) :
    (sequence (values.map write)).listOf? read = some (values.map view) := by
  show (values.map write).mapM read = _
  induction values with
  | nil => rfl
  | cons first rest ih =>
    rw [List.map_cons, List.mapM_cons, reads, ih]
    rfl

end Document

/-- A name without empty components is written so that it reads back. -/
theorem Name.ofDocument?_toDocument {name : Name} (full : [] ∉ name.components) :
    ofDocument? name.toDocument = some name := by
  have read := Name.ofUri_toUri name
  rw [Name.withoutEmpty_eq_self_iff.mpr full] at read
  simp only [toDocument, ofDocument?, read]

theorem Name.full_of_ofDocument? {name : Name} {document : Document}
    (read : ofDocument? document = some name) : [] ∉ name.components := by
  unfold ofDocument? at read
  split at read
  · split at read
    · rename_i found
      cases read
      exact Name.nil_not_mem_ofUri found
    · cases read
  · cases read

/-- A span of time is written in whole seconds and what is left. -/
theorem Duration.ofDocument?_toDocument (span : Duration) :
    ofDocument? span.toDocument = some span := by
  have within := span.within
  have seconds : span.seconds ≤ Document.wordLimit := by
    unfold Duration.seconds Document.wordLimit
    omega
  have subsecond : span.subsecond ≤ Document.halfLimit := by
    unfold Duration.subsecond Document.halfLimit
    omega
  have carries : span.seconds + span.subsecond / 1000000000 ≤ Document.wordLimit := by
    unfold Duration.seconds Duration.subsecond Document.wordLimit
    omega
  have whole : ofSeconds span.seconds span.subsecond = span := by
    refine Duration.ext ?_
    show min (span.seconds * 1000000000 + span.subsecond) longest = span.nanos
    unfold Duration.seconds Duration.subsecond longest
    omega
  have parts : ofParts? (.integer span.seconds) (.integer span.subsecond) = some span := by
    simp only [ofParts?, Document.natural?_integer seconds, Document.natural?_integer subsecond,
      Option.bind_eq_bind, Option.bind_some, if_pos carries, whole]
  simp only [toDocument, ofDocument?, and_self, if_true, parts]

theorem Duration.readOptional_ofOption (span : Option Duration) :
    Document.Members.readOptional ofDocument? (Document.ofOption toDocument span) = some span := by
  have read := Document.Members.readOptional_ofOption ofDocument?_toDocument (fun _ => nofun) span
  rw [Option.map_id'] at read
  exact read

open Document.Members (required optional optionalInTable readOptional required_of_mem
  optional_of_mem optional_of_absent optionalInTable_of_mem)

namespace Interest

variable {interest : Interest}

/-- The members that an Interest is written with. -/
def fields (interest : Interest) : List (String × Document) :=
  [("name", interest.name.toDocument),
    ("nonce", .integer interest.nonce.toNat),
    ("must_be_fresh", .boolean interest.mustBeFresh),
    ("interest_lifetime", Document.ofOption Duration.toDocument interest.lifetime),
    ("hop_limit", Document.ofOption (fun limit => .integer limit.toNat) interest.hopLimit)] ++
  match interest.targetHint with
  | some hint => [("target_hint", .text hint)]
  | none => []

theorem fields_known : ∀ entry ∈ interest.fields, entry.1 ∈
    ["name", "nonce", "must_be_fresh", "interest_lifetime", "hop_limit", "target_hint"] := by
  unfold fields
  cases interest.targetHint <;> simp

theorem fields_apart : (interest.fields.map (·.1)).Nodup := by
  unfold fields
  cases interest.targetHint <;> simp

theorem hint_read :
    optional ⟨false, interest.fields⟩ "target_hint" Document.text? = some interest.targetHint := by
  cases given : interest.targetHint with
  | none =>
    refine optional_of_absent ?_
    unfold fields
    rw [given]
    simp
  | some hint =>
    have member : ("target_hint", Document.text hint) ∈ interest.fields := by
      unfold fields
      rw [given]
      simp
    exact optional_of_mem fields_apart member rfl

/-- An Interest reads back as it was written, but for the face it came in on. -/
theorem ofDocument?_toDocument (full : [] ∉ interest.name.components) :
    ofDocument? interest.toDocument = some { interest with incomingFace := none } := by
  have apart := interest.fields_apart
  have within : interest.nonce.toNat ≤ Document.halfLimit := by
    have bound := interest.nonce.toNat_lt
    unfold Document.halfLimit
    omega
  have whole : interest.toDocument.members? false ["name", "nonce", "must_be_fresh",
      "interest_lifetime", "hop_limit", "target_hint"] = some ⟨false, interest.fields⟩ :=
    Document.members?_table fields_known apart false
  have name : required ⟨false, interest.fields⟩ "name" Name.ofDocument? = some interest.name :=
    required_of_mem apart (by simp [fields]) (Name.ofDocument?_toDocument full)
  have nonce : required ⟨false, interest.fields⟩ "nonce" (Document.natural? Document.halfLimit) =
      some interest.nonce.toNat :=
    required_of_mem apart (by simp [fields]) (Document.natural?_integer within)
  have fresh : required ⟨false, interest.fields⟩ "must_be_fresh" Document.boolean? =
      some interest.mustBeFresh := by
    have member : ("must_be_fresh", Document.boolean interest.mustBeFresh) ∈ interest.fields := by
      simp [fields]
    exact required_of_mem apart member rfl
  have lifetime : optionalInTable ⟨false, interest.fields⟩ "interest_lifetime"
      Duration.ofDocument? = some interest.lifetime :=
    optionalInTable_of_mem apart (by simp [fields]) (Duration.readOptional_ofOption _)
  have limit : readOptional (Document.natural? 255)
      (Document.ofOption (fun limit => .integer limit.toNat) interest.hopLimit) =
        some (interest.hopLimit.map UInt8.toNat) := by
    have nonempty (limit : UInt8) : Document.integer limit.toNat ≠ .null := nofun
    exact Document.Members.readOptional_ofOption Document.natural?_byte nonempty interest.hopLimit
  have hops : optionalInTable ⟨false, interest.fields⟩ "hop_limit" (Document.natural? 255) =
      some (interest.hopLimit.map UInt8.toNat) :=
    optionalInTable_of_mem apart (by simp [fields]) limit
  have sameLimit : (interest.hopLimit.map UInt8.toNat).map UInt8.ofNat = interest.hopLimit := by
    cases interest.hopLimit <;> simp
  simp only [ofDocument?, whole, name, nonce, fresh, lifetime, hops, hint_read, sameLimit,
    Option.bind_eq_bind, Option.bind_some, UInt32.ofNat_toNat, Option.pure_def]

/-- An Interest that was read has no empty component in its name, and came in on no face. -/
theorem read_ofDocument? {document : Document} (read : ofDocument? document = some interest) :
    [] ∉ interest.name.components ∧ interest.incomingFace = none := by
  simp only [ofDocument?, Option.bind_eq_bind, Option.bind_eq_some_iff] at read
  obtain ⟨members, _, name, isName, _, _, _, _, _, _, _, _, _, _, made⟩ := read
  obtain ⟨document, _, named⟩ := Option.bind_eq_some_iff.mp isName
  cases made
  exact ⟨Name.full_of_ofDocument? named, rfl⟩

end Interest

namespace Data

variable {data : Data}

def fields (data : Data) : List (String × Document) :=
  [("name", data.name.toDocument),
    ("freshness_period", Document.ofOption Duration.toDocument data.freshness),
    ("content", .sequence (data.content.map fun byte => .integer byte.toNat))]

/-- Data reads back as it was written, but for the face it came in on. -/
theorem ofDocument?_toDocument (full : [] ∉ data.name.components) :
    ofDocument? data.toDocument = some { data with incomingFace := none } := by
  have apart : (data.fields.map (·.1)).Nodup := by simp [fields]
  have whole : data.toDocument.members? false ["name", "freshness_period", "content"] =
      some ⟨false, data.fields⟩ :=
    Document.members?_table (by simp [fields]) apart false
  have name : required ⟨false, data.fields⟩ "name" Name.ofDocument? = some data.name :=
    required_of_mem apart (by simp [fields]) (Name.ofDocument?_toDocument full)
  have freshness : optionalInTable ⟨false, data.fields⟩ "freshness_period" Duration.ofDocument? =
      some data.freshness :=
    optionalInTable_of_mem apart (by simp [fields]) (Duration.readOptional_ofOption _)
  have content : required ⟨false, data.fields⟩ "content"
      (Document.listOf? (Document.natural? 255)) = some (data.content.map UInt8.toNat) :=
    required_of_mem apart (by simp [fields]) (Document.listOf?_map Document.natural?_byte data.content)
  have sameContent : (data.content.map UInt8.toNat).map UInt8.ofNat = data.content := by
    simp [Function.comp_def]
  simp only [ofDocument?, whole, name, freshness, content, sameContent, Option.bind_eq_bind,
    Option.bind_some, Option.pure_def]

/-- Data that was read has no empty component in its name, and came in on no face. -/
theorem read_ofDocument? {document : Document} (read : ofDocument? document = some data) :
    [] ∉ data.name.components ∧ data.incomingFace = none := by
  simp only [ofDocument?, Option.bind_eq_bind, Option.bind_eq_some_iff] at read
  obtain ⟨members, _, name, isName, _, _, _, _, made⟩ := read
  obtain ⟨document, _, named⟩ := Option.bind_eq_some_iff.mp isName
  cases made
  exact ⟨Name.full_of_ofDocument? named, rfl⟩

end Data

namespace Packet

variable {packet : Packet}

/-- The packet as it was sent, with no face that it came in on. -/
def unmarked : Packet → Packet
  | .interest request => .interest { request with incomingFace := none }
  | .data reply => .data { reply with incomingFace := none }

theorem ofDocument?_toDocument (full : [] ∉ packet.name.components) :
    ofDocument? packet.toDocument = some packet.unmarked := by
  cases packet with
  | interest request =>
    simp only [toDocument, ofDocument?, if_true, Interest.ofDocument?_toDocument full,
      Option.map_some, unmarked]
  | data reply =>
    have other : ¬ "Data" = "Interest" := by decide
    simp only [toDocument, ofDocument?, if_neg other, if_true, Data.ofDocument?_toDocument full,
      Option.map_some, unmarked]

/-- Every packet that was read is one that is written so that it reads back whole. -/
theorem read_ofDocument? {document : Document} (read : ofDocument? document = some packet) :
    [] ∉ packet.name.components ∧ packet.unmarked = packet := by
  unfold ofDocument? at read
  split at read
  · split at read
    · obtain ⟨request, found, rfl⟩ := Option.map_eq_some_iff.mp read
      obtain ⟨full, unheard⟩ := Interest.read_ofDocument? found
      exact ⟨full, by rw [unmarked, ← unheard]⟩
    · split at read
      · obtain ⟨reply, found, rfl⟩ := Option.map_eq_some_iff.mp read
        obtain ⟨full, unheard⟩ := Data.read_ofDocument? found
        exact ⟨full, by rw [unmarked, ← unheard]⟩
      · cases read
  · cases read

/-- A packet whose name has no empty component is written so that it reads back, but for the
face it came in on, and a packet that was read is written so that it reads back as it is. -/
theorem packets_read_back :
    (∀ packet : Packet, [] ∉ packet.name.components →
      ofDocument? packet.toDocument = some packet.unmarked) ∧
    ∀ (document : Document) (packet : Packet), ofDocument? document = some packet →
      ofDocument? packet.toDocument = some packet := by
  refine ⟨fun packet full => ofDocument?_toDocument full, fun document packet read => ?_⟩
  obtain ⟨full, whole⟩ := read_ofDocument? read
  rw [ofDocument?_toDocument full, whole]

/-- An Interest for the next hop, as it came in on a face. -/
def arrived : Packet :=
  .interest {
    name := ⟨[[97, 47], [0]]⟩
    nonce := 5
    lifetime := some (Duration.ofMillis 1500)
    hopLimit := some 1
    targetHint := some "02:00"
    incomingFace := some ⟨256⟩ }

theorem packets_read_back_but_for_the_face :
    [] ∉ arrived.name.components ∧ arrived.unmarked ≠ arrived ∧
      ofDocument? arrived.toDocument = some arrived.unmarked ∧
      ofDocument? arrived.unmarked.toDocument = some arrived.unmarked := by
  have full : [] ∉ arrived.name.components := by decide
  have read := packets_read_back.1 arrived full
  exact ⟨full, by decide, read, packets_read_back.2 _ _ read⟩

end Packet

end NamedData
