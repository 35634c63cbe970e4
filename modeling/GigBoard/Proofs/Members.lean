import GigBoard.Json.Decoder
import GigBoard.Proofs.Forms

/-!
# Where the fields of a record come from

Reading an object goes from member to member.  `Meets` follows it on its way, so what stands in a field
of the record at the end was read at a member of the right name, and not somewhere else in the text.
-/

set_option autoImplicit false

namespace GigBoard.Json.Decoder

variable {σ α : Type} {known : List (Member σ)} {name : String} {record record' : σ}
  {bs rest : List UInt8} {first : Bool} {seen : List String}

/-! ## From member to member -/

/-- The value of a member is passed: it is skipped if the record has no such member, and is read into
the record otherwise. -/
inductive Passes (known : List (Member σ)) (name : String) :
    σ → List UInt8 → σ → List UInt8 → Prop where
  | skipped {record : σ} {value rest : List UInt8}
      (unknown : known.find? (fun m => decide (m.name = name)) = none)
      (skipped : skipValue value = .ok rest) : Passes known name record value record rest
  | read {record record' : σ} {value rest : List UInt8} {member : Member σ}
      (found : known.find? (fun m => decide (m.name = name)) = some member)
      (read : member.read record value = .ok (record', rest)) :
      Passes known name record value record' rest

/-- Reading the members of an object from some octets on comes to a member with a name, whose value
begins at the last octets. -/
inductive Meets (known : List (Member σ)) :
    Bool → σ → List UInt8 → String → List UInt8 → Prop where
  | here {first : Bool} {record : σ} {bs behind value : List UInt8} {name : String}
      (named : nextMember first bs = .ok (some name, behind))
      (colon : afterColon behind = .ok value) : Meets known first record bs name value
  | later {first : Bool} {record record' : σ} {bs behind passed rest value : List UInt8}
      {other name : String} (named : nextMember first bs = .ok (some other, behind))
      (colon : afterColon behind = .ok passed)
      (passes : Passes known other record passed record' rest)
      (meets : Meets known false record' rest name value) : Meets known first record bs name value

/-- One step of reading: the object ends, or one more member is passed.  A member of the record has
not been seen before and is seen then. -/
theorem members_cases {b : UInt8} {bound : List UInt8}
    (read : members known (b :: bound) first seen record bs = .ok (record', rest)) :
    (nextMember first bs = .ok (none, rest) ∧ record' = record) ∨
      ∃ other behind value next rest' seen', nextMember first bs = .ok (some other, behind) ∧
        afterColon behind = .ok value ∧ Passes known other record value next rest' ∧
          members known bound false seen' next rest' = .ok (record', rest) ∧
            (∀ name ∈ seen, name ∈ seen') ∧
              ((∃ m ∈ known, m.name = other) → other ∉ seen ∧ other ∈ seen') := by
  simp only [members] at read
  split at read
  · cases read
  · rename_i closed
    cases read
    exact .inl ⟨closed, rfl⟩
  · rename_i other behind named
    refine .inr ?_
    split at read
    · rename_i unknown
      split at read
      · cases read
      · rename_i rest' passed
        obtain ⟨value, colon, skipped⟩ := bind_ok passed
        refine ⟨other, behind, value, record, rest', seen, named, colon,
          .skipped unknown skipped, read, fun _ known => known, ?_⟩
        rintro ⟨m, isKnown, isOther⟩
        have apart := List.find?_eq_none.mp unknown m isKnown
        simp [isOther] at apart
    · rename_i member found
      split at read
      · cases read
      rename_i isNew
      split at read
      · cases read
      · rename_i next rest' passed
        obtain ⟨value, colon, put⟩ := bind_ok passed
        exact ⟨other, behind, value, next, rest', other :: seen, named, colon,
          .read found put, read, fun _ known => List.mem_cons_of_mem _ known,
          fun _ => ⟨isNew, List.mem_cons_self⟩⟩

/-! ### Once -/

theorem Passes.unique {value rest rest' : List UInt8} {next next' : σ}
    (passes : Passes known name record value next rest)
    (passes' : Passes known name record value next' rest') : next' = next ∧ rest' = rest := by
  cases passes with
  | skipped unknown skipped =>
      cases passes' with
      | skipped _ skipped' =>
          rw [skipped] at skipped'
          cases skipped'
          exact ⟨rfl, rfl⟩
      | read found =>
          rw [unknown] at found
          cases found
  | read found read =>
      cases passes' with
      | skipped unknown =>
          rw [unknown] at found
          cases found
      | read found' read' =>
          rw [found] at found'
          cases found'
          rw [read] at read'
          cases read'
          exact ⟨rfl, rfl⟩

/-- A member that comes next is passed. -/
theorem members_of_named {bound behind value : List UInt8} {other : String}
    (named : nextMember first bs = .ok (some other, behind)) (colon : afterColon behind = .ok value)
    (read : members known bound first seen record bs = .ok (record', rest)) :
    ∃ bound' next rest' seen', Passes known other record value next rest' ∧
      members known bound' false seen' next rest' = .ok (record', rest) ∧
        (∀ name ∈ seen, name ∈ seen') ∧
          ((∃ m ∈ known, m.name = other) → other ∉ seen ∧ other ∈ seen') := by
  cases bound with
  | nil => cases read
  | cons b bound =>
      rcases members_cases read with ⟨closed, _⟩ |
        ⟨_, _, _, next, rest', seen', named', colon', passes, later, kept, once⟩
      · rw [named] at closed
        cases closed
      · rw [named] at named'
        cases named'
        rw [colon] at colon'
        cases colon'
        exact ⟨bound, next, rest', seen', passes, later, kept, once⟩

namespace Meets

variable {bound value value' : List UInt8}

/-- No member of the record that was seen is met again. -/
theorem not_mem_seen (meets : Meets known first record bs name value)
    (isKnown : ∃ m ∈ known, m.name = name)
    (read : members known bound first seen record bs = .ok (record', rest)) : name ∉ seen := by
  induction meets generalizing bound seen with
  | here named colon =>
      obtain ⟨_, _, _, _, _, _, _, once⟩ := members_of_named named colon read
      exact (once isKnown).1
  | later named colon passes _ ih =>
      obtain ⟨_, _, _, _, passes', later, kept, _⟩ := members_of_named named colon read
      obtain ⟨rfl, rfl⟩ := passes.unique passes'
      exact fun isSeen => ih isKnown later (kept _ isSeen)

/-- A member of the record is met once. -/
theorem unique (meets : Meets known first record bs name value)
    (meets' : Meets known first record bs name value') (isKnown : ∃ m ∈ known, m.name = name)
    (read : members known bound first seen record bs = .ok (record', rest)) : value' = value := by
  -- Where one of them is met here and the other later, its name would have been seen.
  induction meets generalizing bound seen with
  | here named colon =>
      cases meets' with
      | here named' colon' =>
          rw [named] at named'
          cases named'
          rw [colon] at colon'
          cases colon'
          rfl
      | later named' colon' passes' meets' =>
          rw [named] at named'
          cases named'
          obtain ⟨_, _, _, _, passes, later, _, once⟩ := members_of_named named colon' read
          obtain ⟨rfl, rfl⟩ := passes'.unique passes
          exact absurd (once isKnown).2 (meets'.not_mem_seen isKnown later)
  | later named colon passes meets ih =>
      obtain ⟨_, _, _, _, passes', later, _, once⟩ := members_of_named named colon read
      obtain ⟨rfl, rfl⟩ := passes.unique passes'
      cases meets' with
      | here named' colon' =>
          rw [named] at named'
          cases named'
          exact absurd (once isKnown).2 (meets.not_mem_seen isKnown later)
      | later named' colon' passes'' meets' =>
          rw [named] at named'
          cases named'
          rw [colon] at colon'
          cases colon'
          obtain ⟨rfl, rfl⟩ := passes.unique passes''
          exact ih meets' isKnown later

end Meets

/-! ## Fields -/

/-- A field of the record is written by the member of one name only, with what a decoder reads. -/
def WrittenBy (known : List (Member σ)) (field : σ → Option α) (name : String)
    (decoder : Decoder α) : Prop :=
  ∀ member ∈ known, ∀ record value record' rest, member.read record value = .ok (record', rest) →
    field record' = field record ∨
      (member.name = name ∧ ∃ a, decoder value = .ok (a, rest) ∧ field record' = some a)

/-- Whatever is in the field at the end was in it before or was read at the member that writes it. -/
theorem members_meets {field : σ → Option α} {decoder : Decoder α}
    (written : WrittenBy known field name decoder) {bound : List UInt8}
    (read : members known bound first seen record bs = .ok (record', rest)) :
    field record' = field record ∨ ∃ value a behind, Meets known first record bs name value ∧
      decoder value = .ok (a, behind) ∧ field record' = some a := by
  -- A member that is met later may write the field again, so the last one decides.
  induction bound generalizing first seen record bs with
  | nil => cases read
  | cons _ bound ih =>
      rcases members_cases read with ⟨_, rfl⟩ |
        ⟨other, behind, value, next, rest', seen', named, colon, passes, later, _, _⟩
      · exact .inl rfl
      rcases ih later with same | ⟨value', a, behind', meets, decoded, put⟩
      · rw [same]
        cases passes with
        | skipped unknown skipped => exact .inl rfl
        | @read _ _ _ member found put =>
            have isNamed : member.name = other := by simpa using List.find?_some found
            have isKnown := List.mem_of_find?_eq_some found
            rcases written member isKnown _ _ _ _ put with unchanged |
              ⟨isName, a, decoded, stored⟩
            · exact .inl unchanged
            · have isOther : other = name := isNamed.symm.trans isName
              exact .inr ⟨value, a, rest', .here (isOther ▸ named) colon, decoded, stored⟩
      · exact .inr ⟨value', a, behind', .later named colon passes meets, decoded, put⟩

def States (known : List (Member σ)) (start : σ) (inside : List UInt8) (name : String)
    (decoder : Decoder α) (a : α) : Prop :=
  ∃ value behind, Meets known true start inside name value ∧ decoder value = .ok (a, behind)

/-- What is read into a field that was empty is stated. -/
theorem states_of_members {field : σ → Option α} {decoder : Decoder α} {a : α}
    (written : WrittenBy known field name decoder) {bound : List UInt8} (empty : field record = none)
    (read : members known bound true seen record bs = .ok (record', rest))
    (stored : field record' = some a) : States known record bs name decoder a := by
  rcases members_meets written read with same | ⟨value, a', behind, meets, decoded, put⟩
  · rw [same, empty] at stored
    cases stored
  · rw [put] at stored
    cases stored
    exact ⟨value, behind, meets, decoded⟩

theorem of_read {decoder : Decoder α} {put : σ → α → σ} {value : List UInt8}
    (read : (Member.of name decoder put).read record value = .ok (record', rest)) :
    ∃ a, decoder value = .ok (a, rest) ∧ record' = put record a := by
  simp only [Member.of] at read
  split at read
  · cases read
  · rename_i a behind decoded
    cases read
    exact ⟨a, decoded, rfl⟩

namespace WrittenBy

variable {β : Type} {field : σ → Option α} {decoder : Decoder α}

theorem nil : WrittenBy [] field name decoder := fun _ absent => nomatch absent

theorem own {put : σ → α → σ} (stores : ∀ record a, field (put record a) = some a)
    (later : WrittenBy known field name decoder) :
    WrittenBy (.of name decoder put :: known) field name decoder := by
  rw [WrittenBy, List.forall_mem_cons]
  refine ⟨fun record value record' rest read => ?_, later⟩
  obtain ⟨a, decoded, rfl⟩ := of_read read
  exact .inr ⟨rfl, a, decoded, stores record a⟩

theorem other {other : String} {otherDecoder : Decoder β} {put : σ → β → σ}
    (keeps : ∀ record b, field (put record b) = field record)
    (later : WrittenBy known field name decoder) :
    WrittenBy (.of other otherDecoder put :: known) field name decoder := by
  rw [WrittenBy, List.forall_mem_cons]
  refine ⟨fun record value record' rest read => ?_, later⟩
  obtain ⟨b, _, rfl⟩ := of_read read
  exact .inl (keeps record b)

end WrittenBy

/-! ## Arrays -/

/-- An element of an array is read into the record, if the member that it stands for may not be
missing. -/
theorem positions_cases {member : Member σ} (needed : member.omissible = false)
    (read : positions (member :: known) first record bs = .ok (record', rest)) :
    ∃ value next behind, nextElement first bs = .ok (true, value) ∧
      member.read record value = .ok (next, behind) ∧
        positions known false next behind = .ok (record', rest) := by
  simp only [positions] at read
  split at read
  · cases read
  · rw [needed] at read
    cases read
  · rename_i value found
    split at read
    · cases read
    · rename_i next behind put
      exact ⟨value, next, behind, found, put, read⟩

/-- Members that do not write a field leave it as it is. -/
theorem positions_unwritten (field : σ → Option α)
    (needed : ∀ member ∈ known, member.omissible = false)
    (unwritten : ∀ member ∈ known, ∀ record value record' rest,
      member.read record value = .ok (record', rest) → field record' = field record)
    (read : positions known first record bs = .ok (record', rest)) :
    field record' = field record := by
  induction known generalizing first record bs with
  | nil =>
      simp only [positions] at read
      cases closed : closeArray bs with
      | error f =>
          rw [closed] at read
          cases read
      | ok behind =>
          rw [closed] at read
          cases read
          rfl
  | cons member known ih =>
      obtain ⟨neededHere, neededLater⟩ := List.forall_mem_cons.mp needed
      obtain ⟨unwrittenHere, unwrittenLater⟩ := List.forall_mem_cons.mp unwritten
      obtain ⟨value, next, behind, _, put, later⟩ := positions_cases neededHere read
      rw [ih neededLater unwrittenLater later, unwrittenHere _ _ _ _ put]

/-! ## Other decoders -/

theorem of_refine_ok {β : Type} {decoder : Decoder α} {make : α → Option β} {b : β}
    (read : decoder.refine make bs = .ok (b, rest)) :
    ∃ a, decoder bs = .ok (a, rest) ∧ make a = some b := by
  simp only [refine] at read
  split at read
  · cases read
  · rename_i a behind decoded
    split at read
    · cases read
    · rename_i b' made
      cases read
      exact ⟨a, decoded, made⟩

theorem refuse_ne_ok (bs : List UInt8) (r : α × List UInt8) : refuse bs ≠ .ok r := by
  intro read
  unfold refuse at read
  split at read
  · cases read
  · dsimp only at read
    split at read
    · cases read
    · cases read

/-- A record is read from an object or from an array. -/
theorem record_cases {start : σ} (read : Decoder.record start known bs = .ok (record', rest)) :
    (∃ inside bound, skipSpace bs = 0x7b :: inside ∧
      members known bound true [] start inside = .ok (record', rest)) ∨
    (∃ inside, skipSpace bs = octet '[' :: inside ∧
      positions known true start inside = .ok (record', rest)) := by
  simp only [Decoder.record] at read
  split at read
  · cases read
  rename_i b inside skipped
  split at read
  · rename_i isBrace
    exact .inl ⟨inside, _, isBrace ▸ skipped, read⟩
  split at read
  · rename_i isBracket
    exact .inr ⟨inside, isBracket ▸ skipped, read⟩
  · exact absurd read (refuse_ne_ok _ _)

theorem of_whole_ok {decoder : Decoder α} {a : α} (read : decoder.whole bs = .ok a) :
    ∃ behind, decoder bs = .ok (a, behind) := by
  simp only [whole] at read
  split at read
  · cases read
  · rename_i a' behind decoded
    split at read
    · cases read
      exact ⟨behind, decoded⟩
    · cases read

/-- A value spells a name: it is a string of this text, or an object that begins with one. -/
def Spells (value : List UInt8) (name : String) : Prop :=
  ∃ place behind, (skipSpace value = place ∨ skipSpace value = 0x7b :: place) ∧
    text place = .ok (name, behind)

theorem text_brace (bs : List UInt8) (r : String × List UInt8) : text (0x7b :: bs) ≠ .ok r :=
  refuse_ne_ok (0x7b :: bs) r

/-- A value spells one name. -/
theorem Spells.unique {value : List UInt8} {name' : String} (spells : Spells value name)
    (spells' : Spells value name') : name' = name := by
  obtain ⟨place, behind, start | start, read⟩ := spells <;>
    obtain ⟨place', behind', start' | start', read'⟩ := spells' <;>
      rw [start] at start'
  · subst start'
    rw [read] at read'
    cases read'
    rfl
  · subst start'
    exact absurd read (text_brace _ _)
  · subst start'
    exact absurd read' (text_brace _ _)
  · cases start'
    rw [read] at read'
    cases read'
    rfl

/-- One of some names is read only where it is spelled. -/
theorem spells_of_variant {ofName : String → Option α} {value : List UInt8} {a : α}
    (read : variant ofName value = .ok (a, rest)) :
    ∃ name, Spells value name ∧ ofName name = some a := by
  simp only [variant] at read
  split at read
  · cases read
  rename_i b behind skipped
  split at read
  · obtain ⟨name, spelled, known⟩ := of_refine_ok read
    exact ⟨name, ⟨b :: behind, rest, .inl skipped, spelled⟩, known⟩
  split at read
  · rename_i isBrace
    split at read
    · cases read
    rename_i a' behind' refined
    obtain ⟨name, spelled, known⟩ := of_refine_ok refined
    -- The null value and the closing brace behind the name do not change what was read.
    have same : a' = a := by
      split at read
      · cases read
      split at read
      · cases read
      split at read
      · split at read
        · cases read
        split at read
        · cases read
        split at read
        · cases read
          rfl
        · cases read
      · exact absurd read (refuse_ne_ok _ _)
    exact ⟨name, ⟨behind, behind', .inr (isBrace ▸ skipped), spelled⟩, same ▸ known⟩
  · cases read

end GigBoard.Json.Decoder
