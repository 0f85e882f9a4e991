import Mathlib.Data.List.Forall2
import Mathlib.Data.List.Nodup
import Lectern.Proofs.Json.Skipping

/-!
# Written records

A record is read from an object member by member: a known key takes the value into its field, any
other key is passed over with its value (`members_fills`). So what is read depends on the values
behind the known keys alone, and not on where they stand (`fills_of_tells`). The writer's own
layout is one of those that are read (`objectOf_writeAt`).
-/

namespace Lectern.Json.Reader

/-! ## Members -/

section

variable {key body : Text} (spelled : Spelled key body)
include spelled

theorem nextKey_leads {isFirst : Bool} {lead : Text} (leads : Leads isFirst lead) (rest : Text) :
    nextKey isFirst (lead ++ '"' :: (body ++ '"' :: rest)) = .ok (some key, rest) := by
  have read : textBody (body ++ '"' :: rest) = .ok (key, rest) := scanText_spelled spelled rest
  cases leads with
  | first isSpaces =>
    rw [nextKey, bind_peekToken isSpaces rfl]
    exact (bind_of_ok (advance_cons ..) _).trans (bind_of_ok read _)
  | further isSpaces isSpacesBehind =>
    rw [List.append_assoc, List.cons_append, nextKey, bind_peekToken isSpaces rfl]
    refine (bind_of_ok (advance_cons ..) _).trans ?_
    rw [bind_peekToken isSpacesBehind rfl]
    exact (bind_of_ok (advance_cons ..) _).trans (bind_of_ok read _)

end

theorem nextKey_end {spaces : Text} (isSpaces : Spaces spaces) (isFirst : Bool) (rest : Text) :
    nextKey isFirst (spaces ++ '\x7d' :: rest) = .ok (none, '\x7d' :: rest) := by
  rw [nextKey, bind_peekToken isSpaces rfl]
  rfl

section

variable {σ : Type} {fields : List (Field σ)} {isFirst : Bool} {seen : List Text}
  {unread rest : Text} {record : σ}

theorem members_end (next : nextKey isFirst unread = .ok (none, '\x7d' :: rest)) (more : Nat) :
    members fields (more + 1) isFirst seen record unread = .ok (record, rest) :=
  bind_of_ok next _

section

variable {key behindKey behindColon behindValue : Text}
  (next : nextKey isFirst unread = .ok (some key, behindKey))
  (atColon : colon behindKey = .ok ((), behindColon))
include next atColon

/-- A member with a known key that is new is read into its field. -/
theorem members_known {field : Field σ} {middle : σ}
    (found : fields.find? (·.key = key) = some field) (fresh : key ∉ seen)
    (value : field.read record behindColon = .ok (middle, behindValue)) (more : Nat) :
    members fields (more + 1) isFirst seen record unread =
      members fields more false (key :: seen) middle behindValue := by
  refine (bind_of_ok next _).trans ?_
  simp only [found, if_neg fresh]
  rw [bind_of_ok atColon, bind_of_ok value]

/-- A member with another key is passed over. -/
theorem members_unknown (unknown : fields.find? (·.key = key) = none)
    (value : skipValue behindColon = .ok ((), behindValue)) (more : Nat) :
    members fields (more + 1) isFirst seen record unread =
      members fields more false seen record behindValue := by
  refine (bind_of_ok next _).trans ?_
  simp only [unknown]
  rw [bind_of_ok atColon, bind_of_ok value]

end

/-! ## Objects -/

/-- Reading the members one after another leads from one record to another: a known key comes once,
and its field reads the value into the record; another key leaves the record as it is. -/
inductive Fills (fields : List (Field σ)) : List (Text × Text) → σ → σ → Prop
  | nil (record : σ) : Fills fields [] record record
  | known {key written : Text} {others : List (Text × Text)} {field : Field σ}
      {start middle final : σ} (found : fields.find? (·.key = key) = some field)
      (once : key ∉ others.map Prod.fst) (reads : Reads (field.read start) written middle)
      (behind : Fills fields others middle final) :
      Fills fields ((key, written) :: others) start final
  | unknown {key written : Text} {others : List (Text × Text)} {start final : σ}
      (unknown : fields.find? (·.key = key) = none) (wellformed : Wellformed written)
      (behind : Fills fields others start final) :
      Fills fields ((key, written) :: others) start final

theorem member_ne_nil {IsKey : Text → Text → Prop} {member : Text × Text} {written : Text}
    (isMember : Member IsKey member written) : written ≠ [] := by
  cases isMember
  exact List.cons_ne_nil _ _

theorem length_lt_entries {close : Char} {ε : Type} {Written : ε → Text → Prop} {isFirst : Bool}
    {entries : List ε} {text : Text} (layout : Entries close Written isFirst entries text)
    (nonempty : ∀ entry written, Written entry written → written ≠ []) :
    entries.length < text.length := by
  induction layout with
  | done isSpaces => simp
  | entry leads isWritten behind ih =>
    have occupied := List.length_pos_of_ne_nil (nonempty _ _ isWritten)
    simp only [List.length_append, List.length_cons]
    omega

/-- The members of an object are read into the record one after another. -/
theorem members_fills {entries : List (Text × Text)} {start final : σ}
    (fills : Fills fields entries start final) {text : Text}
    (layout : Entries '\x7d' (Member Spelled) isFirst entries text)
    (fresh : ∀ entry ∈ entries, entry.1 ∉ seen) {more : Nat} (enough : entries.length < more)
    (rest : Text) :
    members fields more isFirst seen start (text ++ rest) = .ok (final, rest) := by
  induction fills generalizing isFirst seen more text with
  | nil record =>
    obtain ⟨more, rfl⟩ := Nat.exists_eq_succ_of_ne_zero (Nat.ne_zero_of_lt enough)
    cases layout with
    | done isSpaces =>
      rw [List.append_assoc]
      exact members_end (nextKey_end isSpaces isFirst rest) more
  | @known key written others field start middle final found once reads behind ih =>
    obtain ⟨more, rfl⟩ := Nat.exists_eq_succ_of_ne_zero (Nat.ne_zero_of_lt enough)
    cases layout with
    | entry leads isMember layoutBehind =>
      obtain ⟨spelled, isSpaces, isSpacesBehind⟩ := isMember
      have freshBehind : ∀ entry ∈ others, entry.1 ∉ key :: seen := by
        intro entry member
        rw [List.mem_cons, not_or]
        refine ⟨?_, fresh entry (List.mem_cons_of_mem _ member)⟩
        intro same
        exact once (List.mem_map.mpr ⟨entry, member, same⟩)
      simp only [List.append_assoc, List.cons_append]
      refine (members_known (nextKey_leads spelled leads _) (colon_spaces isSpaces _) found
        (fresh _ List.mem_cons_self) (reads _ isSpacesBehind _ ?_) more).trans ?_
      · exact ends_entries Brackets.closed_object layoutBehind rest
      · exact ih layoutBehind freshBehind (Nat.lt_of_succ_lt_succ enough)
  | @unknown key written others start final unknown wellformed behind ih =>
    obtain ⟨more, rfl⟩ := Nat.exists_eq_succ_of_ne_zero (Nat.ne_zero_of_lt enough)
    cases layout with
    | entry leads isMember layoutBehind =>
      obtain ⟨spelled, isSpaces, isSpacesBehind⟩ := isMember
      simp only [List.append_assoc, List.cons_append]
      refine (members_unknown (nextKey_leads spelled leads _) (colon_spaces isSpaces _) unknown
        (reads_skipValue wellformed _ isSpacesBehind _ ?_) more).trans ?_
      · exact ends_entries Brackets.closed_object layoutBehind rest
      · exact ih layoutBehind (fun entry member => fresh entry (List.mem_cons_of_mem _ member))
          (Nat.lt_of_succ_lt_succ enough)

/-- A record is read from an object whose members fill it. -/
theorem reads_record {entries : List (Text × Text)} {text : Text} {start final : σ}
    (object : ObjectOf entries text) (fills : Fills fields entries start final) (name : Text) :
    Reads (Reader.record name fields start) text final := by
  obtain ⟨inner, rfl, layout⟩ := object
  have enough := length_lt_entries layout fun _ _ => member_ne_nil
  refine reads_of_token rfl fun rest _ => (bind_of_ok (advance_cons ..) _).trans ?_
  refine members_fills fills layout (by simp) ?_ rest
  rw [List.length_append]
  omega

end

/-! ## Members in any order -/

section

variable {σ : Type} {members : List (Text × Text)} {start : σ}

/-- What members say about a field, by the change of the record that it comes to: the key is missing
and there is nothing to change, or it stands once and reading its value makes the change. -/
def Tells (members : List (Text × Text)) (start : σ) (field : Field σ) (change : σ → σ) : Prop :=
  valuesOf members field.key = [] ∧ change start = start ∨
    ∃ written, valuesOf members field.key = [written] ∧
      ∀ record, Reads (field.read record) written (change record)

/-- Changes that can be made in any order, and again. -/
structure Independent (changes : List (σ → σ)) : Prop where
  swap : ∀ change ∈ changes, ∀ other ∈ changes, ∀ record,
    change (other record) = other (change record)
  again : ∀ change ∈ changes, ∀ record, change (change record) = change record

/-- What a record becomes by changes one after another. -/
def changedBy (changes : List (σ → σ)) (start : σ) : σ :=
  changes.foldl (fun record change => change record) start

/-- A field tells what is given for it if its reader reads the ways to write it. -/
theorem tells_of_names {α : Type} {Writes : α → Text → Prop} {key : Text} {given : Option α}
    (names : Names Writes members key given) {reader : Reader α} {get : σ → α} {set : σ → α → σ}
    (reads : ∀ {value written}, Writes value written → Reads reader written value)
    (same : set start (get start) = start) :
    Tells members start ⟨key, fun record => do pure (set record (← reader))⟩
      fun record => set record (given.getD (get start)) := by
  cases given with
  | none => exact .inl ⟨names, same⟩
  | some value =>
    obtain ⟨written, once, writes⟩ := names
    exact .inr ⟨written, once, fun record => (reads writes).map (set record)⟩

/-- So does a field for a section. -/
theorem tells_of_namesSection {α β : Type} (value : β → α) {Writes : β → Text → Prop} {key : Text}
    {nothing given : β} (names : NamesSection Writes members key nothing given) {reader : Reader α}
    {set : σ → α → σ}
    (reads : ∀ {written}, Writes given written → Reads reader written (value given))
    (same : set start (value nothing) = start) :
    Tells members start ⟨key, fun record => do pure (set record (← reader))⟩
      fun record => set record (value given) := by
  obtain ⟨_ | named, isNamed, rfl⟩ := names
  · exact .inl ⟨isNamed, same⟩
  · obtain ⟨written, once, writes⟩ := isNamed
    exact .inr ⟨written, once, fun record => (reads writes).map (set record)⟩

namespace Independent

variable {changes : List (σ → σ)} (independent : Independent changes)
include independent

/-- A change can be made before all the others as well as behind them. -/
theorem changedBy_comm {change : σ → σ} (member : change ∈ changes) {part : List (σ → σ)}
    (among : part ⊆ changes) (start : σ) :
    changedBy part (change start) = change (changedBy part start) := by
  induction part generalizing start with
  | nil => rfl
  | cons other rest ih =>
    have swapped := independent.swap other (among List.mem_cons_self) change member start
    rw [changedBy, List.foldl_cons, swapped]
    exact ih (fun _ inRest => among (List.mem_cons_of_mem _ inRest)) (other start)

/-- A change that is made first adds nothing to what all changes do. -/
theorem changedBy_absorb {change : σ → σ} (member : change ∈ changes) (start : σ) :
    changedBy changes (change start) = changedBy changes start := by
  obtain ⟨before, behind, whole⟩ := List.append_of_mem member
  have early : before ⊆ changes := fun _ inBefore => by
    rw [whole]
    exact List.mem_append_left _ inBefore
  have once : change (changedBy before (change start)) = change (changedBy before start) := by
    rw [independent.changedBy_comm member early, independent.again change member]
  have parts (start : σ) : changedBy changes start =
      changedBy behind (change (changedBy before start)) := by
    rw [whole, changedBy, List.foldl_append]
    rfl
  rw [parts, parts, once]

end Independent

theorem changedBy_of_idle {changes : List (σ → σ)}
    (idle : ∀ change ∈ changes, change start = start) : changedBy changes start = start := by
  induction changes with
  | nil => rfl
  | cons change rest ih =>
    rw [changedBy, List.foldl_cons, idle change List.mem_cons_self]
    exact ih fun other inRest => idle other (List.mem_cons_of_mem _ inRest)

/-- Members fill a record with what they tell of its fields, in whatever order they stand. -/
theorem fills_of_tells {settings : List (Field σ × (σ → σ))}
    (tells : ∀ setting ∈ settings, Tells members start setting.1 setting.2)
    (distinct : (settings.map (·.1.key)).Nodup) (independent : Independent (settings.map Prod.snd))
    (others : ∀ member ∈ members, member.1 ∉ settings.map (·.1.key) → Wellformed member.2) :
    Fills (settings.map Prod.fst) members start (changedBy (settings.map Prod.snd) start) := by
  induction members generalizing start with
  | nil =>
    have idle : ∀ change ∈ settings.map Prod.snd, change start = start := by
      intro change member
      obtain ⟨setting, isSetting, rfl⟩ := List.mem_map.mp member
      exact (tells setting isSetting).elim And.right nofun
    rw [changedBy_of_idle idle]
    exact .nil start
  | cons entry members ih =>
    obtain ⟨key, written⟩ := entry
    have othersBehind : ∀ member ∈ members, member.1 ∉ settings.map (·.1.key) →
        Wellformed member.2 := fun member inRest => others member (List.mem_cons_of_mem _ inRest)
    -- What is told of a field with another key is told by the members behind the first.
    have further {setting : Field σ × (σ → σ)} (differs : setting.1.key ≠ key) :
        valuesOf ((key, written) :: members) setting.1.key = valuesOf members setting.1.key := by
      rw [valuesOf_cons, if_neg (Ne.symm differs)]
    cases found : (settings.map Prod.fst).find? (·.key = key) with
    | none =>
      have unknown (setting : Field σ × (σ → σ)) (isSetting : setting ∈ settings) :
          setting.1.key ≠ key := by
        simpa using List.find?_eq_none.mp found setting.1 (List.mem_map_of_mem isSetting)
      have isUnknown : key ∉ settings.map (·.1.key) := by
        intro member
        obtain ⟨setting, isSetting, same⟩ := List.mem_map.mp member
        exact unknown setting isSetting same
      refine .unknown found (others _ List.mem_cons_self isUnknown) (ih ?_ othersBehind)
      intro setting isSetting
      have told := tells setting isSetting
      rwa [Tells, further (unknown setting isSetting)] at told
    | some field =>
      obtain ⟨setting, isSetting, rfl⟩ := List.mem_map.mp (List.mem_of_find?_eq_some found)
      obtain rfl : setting.1.key = key := by simpa using List.find?_some found
      have inChanges : setting.2 ∈ settings.map Prod.snd := List.mem_map_of_mem isSetting
      -- The first member is all that is told of its field.
      obtain ⟨missing, -⟩ | ⟨only, once, reads⟩ := tells setting isSetting
      · rw [valuesOf_cons, if_pos rfl] at missing
        cases missing
      rw [valuesOf_cons, if_pos rfl] at once
      obtain ⟨rfl, rest⟩ := List.cons.inj once
      have isLast : setting.1.key ∉ members.map Prod.fst := by
        intro again
        obtain ⟨⟨_, value⟩, inRest, same⟩ := List.mem_map.mp again
        obtain rfl : _ = setting.1.key := same
        exact List.not_mem_nil (rest ▸ mem_valuesOf.mpr inRest)
      have behind : Fills (settings.map Prod.fst) members (setting.2 start) _ := ih ?_ othersBehind
      · rw [independent.changedBy_absorb inChanges] at behind
        exact .known found isLast (reads start) behind
      · intro other isOther
        by_cases same : other.1.key = setting.1.key
        · obtain rfl := List.inj_on_of_nodup_map distinct isOther isSetting same
          exact .inl ⟨rest, independent.again _ inChanges start⟩
        · have told := tells other isOther
          rw [Tells, further same] at told
          refine told.imp_left fun ⟨missing, idle⟩ => ⟨missing, ?_⟩
          rw [independent.swap _ (List.mem_map_of_mem isOther) _ inChanges, idle]

/-- A record is read from an object with what its members tell of the fields. -/
theorem reads_record_of_tells {text : Text} (object : ObjectOf members text)
    {fields : List (Field σ)} {changes : List (σ → σ)}
    (tells : List.Forall₂ (Tells members start) fields changes)
    (distinct : (fields.map (·.key)).Nodup) (independent : Independent changes)
    (others : ∀ member ∈ members, member.1 ∉ fields.map (·.key) → Wellformed member.2)
    (name : Text) :
    Reads (Reader.record name fields start) text (changedBy changes start) := by
  obtain ⟨sameLength, each⟩ := List.forall₂_iff_zip.mp tells
  have first : (fields.zip changes).map Prod.fst = fields := List.map_fst_zip sameLength.le
  have second : (fields.zip changes).map Prod.snd = changes := List.map_snd_zip sameLength.ge
  have keys : (fields.zip changes).map (·.1.key) = fields.map (·.key) :=
    List.map_map.symm.trans (congrArg (List.map (·.key)) first)
  have fills : Fills ((fields.zip changes).map Prod.fst) members start
      (changedBy ((fields.zip changes).map Prod.snd) start) :=
    fills_of_tells (fun _ pair => each pair) (by rwa [keys]) (by rwa [second]) (by rwa [keys])
  rw [first, second] at fills
  exact reads_record object fills name

end

/-! ## Words -/

section

variable {α : Type} {known : List (Text × α)} {name : Text} {value : α}
  (isKnown : known.lookup name = some value)
include isKnown

/-- One of the words that a field may hold. -/
theorem reads_variant {written : Text} (writes : WritesText name written) :
    Reads (variant known) written value := by
  obtain ⟨body, spelled, rfl⟩ := writes
  refine reads_of_token rfl fun rest _ => ?_
  have read : textBody (body ++ ['"'] ++ rest) = .ok (name, rest) := by
    rw [List.append_assoc]
    exact scanText_spelled spelled rest
  refine (bind_of_ok (advance_cons ..) _).trans ((bind_of_ok read _).trans ?_)
  simp only [isKnown]
  rfl

/-- One of the words, as the only key of an object. -/
theorem reads_variant_object {written : Text} (object : ObjectOf [(name, "null")] written) :
    Reads (variant known) written value := by
  obtain ⟨lead, body, before, gap, last, isSpacesFirst, spelled, isSpacesKey, isSpacesColon,
    isSpacesLast, rfl⟩ := object.exists_of_singleton
  refine reads_of_token rfl fun rest _ => (bind_of_ok (advance_cons ..) _).trans ?_
  have read (rest : Text) : textBody (body ++ '"' :: rest) = .ok (name, rest) :=
    scanText_spelled spelled rest
  have opened (rest : Text) : ("null" : Text) ++ rest = 'n' :: (("ull" : Text) ++ rest) := rfl
  simp only [List.append_assoc, List.cons_append]
  -- The word stands where the key of the only member is read.
  refine (bind_of_ok (peekToken_spaces isSpacesFirst rfl _) _).trans ?_
  refine (bind_of_ok (advance_cons ..) _).trans ((bind_of_ok (read _) _).trans ?_)
  simp only [isKnown]
  refine (bind_of_ok rfl _).trans ((bind_of_ok (colon_spaces isSpacesKey _) _).trans ?_)
  rw [opened]
  refine (bind_of_ok (peekToken_spaces isSpacesColon rfl _) _).trans ?_
  refine (bind_of_ok (word_append "null" _) _).trans ?_
  exact (bind_of_ok (peekToken_spaces isSpacesLast rfl _) _).trans (bind_of_ok (advance_cons ..) _)

end

/-! ## The writer -/

theorem spaces_newLine (depth : Nat) : Spaces (newLine depth) := by
  intro c member
  rcases List.mem_cons.mp member with rfl | blank
  · exact .inr (.inl rfl)
  · exact .inl (List.eq_of_mem_replicate blank)

theorem writesText_writeText (value : Text) : WritesText value (writeText value) :=
  ⟨_, spelled_escaped value, by simp [writeText]⟩

theorem writeMembers_cons (depth : Nat) (key : Text) (value : Json)
    (rest : List (Text × Json)) :
    writeMembers depth ((key, value) :: rest) =
      (writeText key ++ ": " ++ writeAt depth value) :: writeMembers depth rest := rfl

/-- Members as they are written at a depth. -/
def membersAt (depth : Nat) (members : List (Text × Json)) : List (Text × Text) :=
  members.map fun (key, value) => (key, writeAt depth value)

theorem member_written (depth : Nat) (key : Text) (value : Json) :
    Member Spelled (key, writeAt depth value)
      (writeText key ++ ": " ++ writeAt depth value) := by
  have parts : writeText key ++ ": " ++ writeAt depth value =
      '"' :: (key.flatMap escapeChar ++ '"' :: ([] ++ ':' :: ([' '] ++ writeAt depth value))) := by
    simp [writeText]
  rw [parts]
  exact .mk (spelled_escaped key) spaces_nil spaces_space

/-- Behind the first member stand the rest of them, each behind a comma and on a line of its own. -/
theorem entries_writeMembers (depth : Nat) (key : Text) (value : Json)
    (rest : List (Text × Json)) :
    ∃ others,
      (',' :: newLine (depth + 1)).intercalate (writeMembers (depth + 1) ((key, value) :: rest))
          ++ (newLine depth ++ ['\x7d']) =
        (writeText key ++ ": " ++ writeAt (depth + 1) value) ++ others ∧
      Entries '\x7d' (Member Spelled) false (membersAt (depth + 1) rest) others := by
  induction rest generalizing key value with
  | nil =>
    refine ⟨newLine depth ++ ['\x7d'], ?_, .done (spaces_newLine depth)⟩
    rw [writeMembers_cons]
    simp [writeMembers]
  | cons entry rest ih =>
    obtain ⟨next, other⟩ := entry
    obtain ⟨others, same, layout⟩ := ih next other
    refine ⟨([] ++ ',' :: newLine (depth + 1)) ++
      ((writeText next ++ (": " : Text) ++ writeAt (depth + 1) other) ++ others), ?_, ?_⟩
    · rw [writeMembers_cons, writeMembers_cons, List.intercalate_cons_cons, ← writeMembers_cons,
        List.append_assoc, same]
      simp
    · exact .entry (.further spaces_nil (spaces_newLine _)) (member_written _ next other) layout

/-- A written object is an object of the written members. -/
theorem objectOf_writeAt (depth : Nat) (members : List (Text × Json)) :
    ObjectOf (membersAt (depth + 1) members) (writeAt depth (.object members)) := by
  cases members with
  | nil => exact ⟨['\x7d'], rfl, .done spaces_nil⟩
  | cons entry rest =>
    obtain ⟨key, value⟩ := entry
    obtain ⟨others, same, layout⟩ := entries_writeMembers depth key value rest
    refine ⟨newLine (depth + 1) ++
      ((writeText key ++ (": " : Text) ++ writeAt (depth + 1) value) ++ others), ?_, ?_⟩
    · rw [← same]
      have written : writeAt depth (.object ((key, value) :: rest)) =
          '\x7b' :: newLine (depth + 1) ++ (',' :: newLine (depth + 1)).intercalate
            (writeMembers (depth + 1) ((key, value) :: rest)) ++ newLine depth ++ ['\x7d'] := rfl
      rw [written]
      simp
    · exact .entry (.first (spaces_newLine _)) (member_written _ key value) layout

end Lectern.Json.Reader
