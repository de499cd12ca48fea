import FundRecovery.Proofs.Json.Forms

/-!
# Options that are given in part

Options read from an object that has some of their fields, in any order and among members that no
field is named for. What is missing has its default; schemes have no defaults.

* `Json.text?_eq_some_iff` and its like: the values that read as a text, a number, a list.
* `Record.ofMembers?_eq_some_iff`: an object reads as its members with known names, if none of these
  repeats. `Record.withDefault?_eq_some_iff`: a field of it, or the default.
* `PathScheme.Form`: the values that read as a scheme. `PathScheme.ofJson?_eq_some_iff`.
* `ScanOptions.Holds`: the values that the fields of options have. `ScanOptions.filled`: options of
  which some fields are given. `ScanOptions.ofObject?_eq_some_iff`: what an object reads as.
* `options_given_in_part`: given fields are read and gaps filled, and which objects do not read.
-/

namespace FundRecovery

open Json

/-! ## Values -/

namespace Json

variable {v : Json}

theorem text?_eq_some_iff {s : String} : text? v = some s ↔ v = .text s := by
  cases v <;> simp [text?]

theorem bool?_eq_some_iff {b : Bool} : bool? v = some b ↔ v = .bool b := by
  cases v <;> simp [bool?]

theorem natural?_eq_some_iff {bound n : Nat} :
    natural? bound v = some n ↔ v = .natural n ∧ n < bound := by
  cases v with
  | natural m =>
    rw [natural?]
    constructor
    · intro h
      split at h
      case isTrue hlt =>
        obtain rfl := Option.some.inj h
        exact ⟨rfl, hlt⟩
      case isFalse => cases h
    · rintro ⟨hm, hlt⟩
      obtain rfl := natural.inj hm
      exact if_pos hlt
  | _ => simp [natural?]

theorem amount?_eq_some_iff {n : Nat} : amount? v = some n ↔ v = .natural n ∧ n < UInt64.size :=
  natural?_eq_some_iff

theorem uint32?_eq_some_iff {n : UInt32} : uint32? v = some n ↔ v = ofUInt32 n := by
  constructor
  · intro h
    obtain ⟨m, hm, rfl⟩ := Option.map_eq_some_iff.mp h
    obtain ⟨rfl, hlt⟩ := natural?_eq_some_iff.mp hm
    rw [ofUInt32, UInt32.toNat_ofNat_of_lt' hlt]
  · rintro rfl
    exact uint32?_ofUInt32 n

/-- A list reads if its items do, one by one. -/
theorem list?_eq_some_iff {α : Type} {item? : Json → Option α} {as : List α} :
    list? item? v = some as ↔
      ∃ items, v = .list items ∧ List.Forall₂ (fun v a => item? v = some a) items as := by
  cases v with
  | list items =>
    rw [list?]
    simp only [list.injEq, exists_eq_left']
    induction items generalizing as with
    | nil =>
      cases as with
      | nil => exact iff_of_true rfl .nil
      | cons a as => exact iff_of_false (fun h => by cases h) fun h => by cases h
    | cons v rest ih =>
      rw [List.mapM_cons]
      cases as with
      | nil => exact iff_of_false (by simp [Option.bind_eq_some_iff]) fun h => by cases h
      | cons a as => simp [Option.bind_eq_some_iff, ih]
  | _ => simp [list?]

/-- Where each item has one form, so has the list. -/
theorem list?_eq_some_iff_ofList {α : Type} {item : α → Json} {item? : Json → Option α}
    (hitem : ∀ {v a}, item? v = some a ↔ v = item a) {as : List α} :
    list? item? v = some as ↔ v = ofList item as := by
  rw [list?_eq_some_iff]
  constructor
  · rintro ⟨items, rfl, hitems⟩
    refine congrArg list ?_
    induction hitems with
    | nil => rfl
    | cons hfirst _ ih => rw [List.map_cons, ← ih, hitem.mp hfirst]
  · rintro rfl
    refine ⟨_, rfl, ?_⟩
    induction as with
    | nil => exact .nil
    | cons a rest ih => exact .cons (hitem.mpr rfl) ih

end Json

/-! ## Records -/

namespace Record

variable {names : List String} {keyed : Record} {name : String} {v : Json}

/-- No name out of `names` is a key twice. -/
def Once (names keys : List String) : Prop := ∀ name ∈ names, keys.count name ≤ 1

instance (names keys : List String) : Decidable (Once names keys) :=
  inferInstanceAs (Decidable (∀ name ∈ names, keys.count name ≤ 1))

/-- The members with a known name. -/
def known (names : List String) (keyed : Record) : Record := keyed.filter (·.1 ∈ names)

theorem nodup_known_iff :
    ((known names keyed).map (·.1)).Nodup ↔ Once names (keyed.map (·.1)) := by
  have hknown : (known names keyed).map (·.1) = (keyed.map (·.1)).filter (· ∈ names) := by
    rw [known, List.filter_map]
    rfl
  rw [hknown, List.nodup_iff_count, Once]
  refine forall_congr' fun name => ?_
  by_cases hname : name ∈ names
  · rw [List.count_filter (p := (· ∈ names)) (decide_eq_true hname), forall_prop_of_true hname]
  · have hout : name ∉ (keyed.map (·.1)).filter (· ∈ names) := fun h =>
      hname (of_decide_eq_true (List.mem_filter.mp h).2)
    rw [List.count_eq_zero_of_not_mem hout]
    exact iff_of_true (Nat.zero_le 1) fun h => absurd h hname

theorem mapM_key_eq_some_iff {members : List (Option String × Json)} :
    members.mapM (fun m => m.1.map fun key => (key, m.2)) = some keyed ↔
      members = keyed.map fun m => (some m.1, m.2) := by
  induction members generalizing keyed with
  | nil => cases keyed <;> simp
  | cons m rest ih =>
    obtain ⟨key | key, v⟩ := m
    · cases keyed <;> simp
    · cases keyed with
      | nil => simp [Option.bind_eq_some_iff]
      | cons m' keyed =>
        rw [List.mapM_cons]
        simp only [Option.map_some, Option.bind_eq_bind, Option.bind_some, Option.bind_eq_some_iff,
          ih, Option.pure_def, Option.some.injEq, List.cons.injEq, List.map_cons, Prod.ext_iff,
          exists_eq_right_right]
        exact and_comm

theorem exists_keyed {members : List (Option String × Json)} (h : none ∉ members.map (·.1)) :
    ∃ keyed : Record, members = keyed.map fun m => (some m.1, m.2) := by
  induction members with
  | nil => exact ⟨[], rfl⟩
  | cons m rest ih =>
    obtain ⟨hm, hrest⟩ := not_or.mp (mt List.mem_cons.mpr h)
    obtain ⟨keyed, rfl⟩ := ih hrest
    obtain ⟨key, hkey⟩ := Option.ne_none_iff_exists'.mp (Ne.symm hm)
    exact ⟨(key, m.2) :: keyed, by rw [List.map_cons, ← hkey]⟩

theorem count_keyed :
    ((keyed.map fun m => (some m.1, m.2)).map (·.1)).count (some name) =
      (keyed.map (·.1)).count name := by
  simp only [List.count, List.countP_map]
  rfl

/-- An object reads as its members with known names, if each key is a text and none of these names
repeats. -/
theorem ofMembers?_eq_some_iff {members : List (Option String × Json)} {r : Record} :
    ofMembers? names members = some r ↔
      ∃ keyed : Record, members = keyed.map (fun m => (some m.1, m.2)) ∧
        Once names (keyed.map (·.1)) ∧ r = known names keyed := by
  simp only [ofMembers?, Option.bind_eq_bind, Option.bind_eq_some_iff, mapM_key_eq_some_iff]
  refine exists_congr fun keyed => and_congr_right fun _ => ?_
  change (if (firstRepeat? [] ((known names keyed).map (·.1))).isNone then some (known names keyed)
    else none) = some r ↔ _
  have honce : (firstRepeat? [] ((known names keyed).map (·.1))).isNone = true ↔
      Once names (keyed.map (·.1)) := by
    rw [Option.isNone_iff_eq_none, firstRepeat?_eq_none_iff, nodup_known_iff]
  by_cases h : Once names (keyed.map (·.1))
  · rw [if_pos (honce.mpr h), Option.some.injEq, and_iff_right h]
    exact eq_comm
  · rw [if_neg (mt honce.mp h)]
    exact iff_of_false (fun hr => by cases hr) fun hr => h hr.1

/-- A known name has at most one value. -/
theorem lookup_known_eq_some_iff (hname : name ∈ names) (honce : Once names (keyed.map (·.1))) :
    (known names keyed).lookup name = some v ↔ (name, v) ∈ keyed := by
  have hmem : (name, v) ∈ known names keyed ↔ (name, v) ∈ keyed := by
    rw [known, List.mem_filter]
    exact and_iff_left (decide_eq_true hname)
  rw [← hmem]
  refine ⟨fun h => ?_, NameMap.lookup_of_mem (nodup_known_iff.mpr honce)⟩
  obtain ⟨before, after, he, -⟩ := List.lookup_eq_some_iff.mp h
  simp [he]

theorem required?_eq_some_iff {α : Type} {r : Record} {item : α → Json} {item? : Json → Option α}
    (hitem : ∀ {v a}, item? v = some a ↔ v = item a) {a : α} :
    r.required? name item? = some a ↔ r.lookup name = some (item a) := by
  rw [required?, Option.bind_eq_bind, Option.bind_eq_some_iff]
  constructor
  · rintro ⟨v, hv, ha⟩
    rw [hv, hitem.mp ha]
  · exact fun h => ⟨_, h, hitem.mpr rfl⟩

/-- A field has what its value reads as, or its default if it has no value. -/
theorem withDefault?_eq_some_iff {α : Type} {missing a : α} {item? : Json → Option α}
    (hname : name ∈ names) (honce : Once names (keyed.map (·.1))) :
    (known names keyed).withDefault? name missing item? = some a ↔
      (∀ v, (name, v) ∈ keyed → item? v = some a) ∧
        (name ∉ keyed.map (·.1) → missing = a) := by
  rw [withDefault?]
  cases hv : (known names keyed).lookup name with
  | none =>
    have hout : ∀ v, (name, v) ∉ keyed := fun v hmem => by
      rw [(lookup_known_eq_some_iff hname honce).mpr hmem] at hv
      cases hv
    have hkey : name ∉ keyed.map (·.1) := by
      rintro h
      obtain ⟨⟨_, v⟩, hmem, rfl⟩ := List.mem_map.mp h
      exact hout v hmem
    rw [Option.some.injEq]
    exact ⟨fun h => ⟨fun v hv => absurd hv (hout v), fun _ => h⟩, fun h => h.2 hkey⟩
  | some w =>
    have hmem := (lookup_known_eq_some_iff hname honce).mp hv
    have honly : ∀ v, (name, v) ∈ keyed ↔ v = w := fun v => by
      rw [← lookup_known_eq_some_iff hname honce, hv, Option.some.injEq, eq_comm]
    have hkey : name ∈ keyed.map (·.1) := List.mem_map_of_mem (f := (·.1)) hmem
    simp only [honly, forall_eq, hkey, not_true_eq_false, false_imp_iff, and_true]

/-- What is read by position is read in full. -/
theorem lookup_zip_iff {fields : Record} {items : List Json} (hn : (fields.map (·.1)).Nodup)
    (hlen : items.length = fields.length) :
    (∀ m ∈ fields, ((fields.map (·.1)).zip items).lookup m.1 = some m.2) ↔
      items = fields.map (·.2) := by
  induction fields generalizing items with
  | nil => simpa using hlen
  | cons m rest ih =>
    obtain ⟨hm, hrest⟩ := List.nodup_cons.mp hn
    cases items with
    | nil => cases hlen
    | cons item items =>
      have hskip : ∀ m' ∈ rest, List.lookup m'.1 ((m.1, item) :: (rest.map (·.1)).zip items) =
          ((rest.map (·.1)).zip items).lookup m'.1 := fun m' hm' => by
        have hne : m'.1 ≠ m.1 := fun he => hm (List.mem_map.mpr ⟨m', hm', he⟩)
        rw [lookup_cons, if_neg hne]
      rw [List.forall_mem_cons, List.map_cons, List.zip_cons_cons, List.lookup_cons_self,
        List.map_cons, List.cons.injEq, Option.some.injEq, ← ih hrest (Nat.succ.inj hlen)]
      exact and_congr_right fun _ => forall₂_congr fun m' hm' => by rw [hskip m' hm']

end Record

/-! ## Schemes -/

namespace PathScheme

/-- The fields of a scheme with their values. -/
def members (s : PathScheme) : Record := [
  ("name", .text s.name),
  ("coin_type", ofUInt32 s.coinType),
  ("purpose", ofUInt32 s.purpose),
  ("accounts", ofList ofUInt32 s.accounts),
  ("scan_change", .bool s.scanChange),
  ("is_legacy", .bool s.isLegacy),
  ("priority", ofUInt32 s.priority),
  ("description", .text s.description)]

/-- The values that stand for a scheme: an object that has each of its fields once, among other
members, and the list of its fields. -/
inductive Form (s : PathScheme) : Json → Prop where
  | object {members : Record} (hheld : ∀ m ∈ s.members, m ∈ members)
      (honce : Record.Once fields (members.map (·.1))) : Form s (ofMembers members)
  | list : Form s (.list (s.members.map (·.2)))

theorem ofJson?_eq_some_iff_lookup {s : PathScheme} {v : Json} :
    ofJson? v = some s ↔
      ∃ r, Record.ofJson? fields v = some r ∧ ∀ m ∈ s.members, r.lookup m.1 = some m.2 := by
  have hlist : ∀ {v as}, list? uint32? v = some as ↔ v = ofList ofUInt32 as :=
    list?_eq_some_iff_ofList uint32?_eq_some_iff
  rw [ofJson?, Option.bind_eq_bind, Option.bind_eq_some_iff]
  refine exists_congr fun r => and_congr_right fun _ => ?_
  simp only [Option.bind_eq_bind, Option.bind_eq_some_iff, Option.pure_def, Option.some.injEq,
    Record.required?_eq_some_iff text?_eq_some_iff,
    Record.required?_eq_some_iff uint32?_eq_some_iff,
    Record.required?_eq_some_iff bool?_eq_some_iff, Record.required?_eq_some_iff hlist, members,
    List.forall_mem_cons]
  constructor
  · rintro ⟨_, hname, _, hcoin, _, hpurpose, _, haccounts, _, hchange, _, hlegacy, _, hpriority, _,
      hdescription, rfl⟩
    exact ⟨hname, hcoin, hpurpose, haccounts, hchange, hlegacy, hpriority, hdescription,
      List.forall_mem_nil _⟩
  · rintro ⟨hname, hcoin, hpurpose, haccounts, hchange, hlegacy, hpriority, hdescription, -⟩
    exact ⟨_, hname, _, hcoin, _, hpurpose, _, haccounts, _, hchange, _, hlegacy, _, hpriority, _,
      hdescription, rfl⟩

theorem nodup_members (s : PathScheme) : (s.members.map (·.1)).Nodup := by
  change fields.Nodup
  decide

theorem ofJson?_eq_some_iff {s : PathScheme} {v : Json} : ofJson? v = some s ↔ s.Form v := by
  have hfields : ∀ m ∈ s.members, m.1 ∈ fields := fun m hm =>
    List.mem_map_of_mem (f := (·.1)) hm
  rw [ofJson?_eq_some_iff_lookup]
  constructor
  · rintro ⟨r, hr, hlookup⟩
    cases v with
    | object members =>
      obtain ⟨keyed, rfl, honce, rfl⟩ := Record.ofMembers?_eq_some_iff.mp hr
      exact .object (fun m hm =>
        (Record.lookup_known_eq_some_iff (hfields m hm) honce).mp (hlookup m hm)) honce
    | list items =>
      rw [Record.ofJson?] at hr
      split at hr
      case isTrue hlen =>
        obtain rfl := Option.some.inj hr
        obtain rfl := (Record.lookup_zip_iff s.nodup_members hlen).mp hlookup
        exact .list
      case isFalse => cases hr
    | _ => cases hr
  · intro hform
    cases hform with
    | object hheld honce =>
      refine ⟨_, Record.ofMembers?_eq_some_iff.mpr ⟨_, rfl, honce, rfl⟩, fun m hm => ?_⟩
      exact (Record.lookup_known_eq_some_iff (hfields m hm) honce).mpr (hheld m hm)
    | list => exact ⟨_, rfl, (Record.lookup_zip_iff s.nodup_members rfl).mpr rfl⟩

end PathScheme

/-! ## Options -/

namespace ScanOptions

variable {o : ScanOptions}

/-- The value is that of the named field. A name that is no field may have any value. -/
def Holds (o : ScanOptions) (name : String) (v : Json) : Prop :=
  match name with
  | "gap_limit" => v = ofUInt32 o.gapLimit
  | "extended_gap_limit" => v = ofUInt32 o.extendedGapLimit
  | "max_concurrent" => v = .natural o.maxConcurrent ∧ o.maxConcurrent < UInt64.size
  | "path_schemes" =>
    ∃ items, v = .list items ∧ List.Forall₂ (fun v s => PathScheme.Form s v) items o.pathSchemes
  | "scan_change_addresses" => v = .bool o.scanChangeAddresses
  | "passphrases" => v = ofList .text o.passphrases
  | "use_bulk_operations" => v = .bool o.useBulkOperations
  | _ => True

/-- The options with these fields, the others at their defaults, and without an observer. -/
def filled (o : ScanOptions) (given : List String) : ScanOptions where
  gapLimit := if "gap_limit" ∈ given then o.gapLimit else default.gapLimit
  extendedGapLimit :=
    if "extended_gap_limit" ∈ given then o.extendedGapLimit else default.extendedGapLimit
  maxConcurrent := if "max_concurrent" ∈ given then o.maxConcurrent else default.maxConcurrent
  pathSchemes := if "path_schemes" ∈ given then o.pathSchemes else default.pathSchemes
  scanChangeAddresses :=
    if "scan_change_addresses" ∈ given then o.scanChangeAddresses else default.scanChangeAddresses
  passphrases := if "passphrases" ∈ given then o.passphrases else default.passphrases
  useBulkOperations :=
    if "use_bulk_operations" ∈ given then o.useBulkOperations else default.useBulkOperations
  observed := false

theorem pathSchemes?_eq_some_iff {v : Json} {schemes : List PathScheme} :
    list? PathScheme.ofJson? v = some schemes ↔
      ∃ items, v = .list items ∧ List.Forall₂ (fun v s => PathScheme.Form s v) items schemes := by
  simp only [list?_eq_some_iff, PathScheme.ofJson?_eq_some_iff]

theorem filled_eq_self_iff {given : List String} :
    o.filled given = o ↔
      ("gap_limit" ∉ given → default.gapLimit = o.gapLimit) ∧
      ("extended_gap_limit" ∉ given → default.extendedGapLimit = o.extendedGapLimit) ∧
      ("max_concurrent" ∉ given → default.maxConcurrent = o.maxConcurrent) ∧
      ("path_schemes" ∉ given → default.pathSchemes = o.pathSchemes) ∧
      ("scan_change_addresses" ∉ given → default.scanChangeAddresses = o.scanChangeAddresses) ∧
      ("passphrases" ∉ given → default.passphrases = o.passphrases) ∧
      ("use_bulk_operations" ∉ given → default.useBulkOperations = o.useBulkOperations) ∧
      o.observed = false := by
  cases o
  simp only [filled, mk.injEq, ite_eq_left_iff, eq_comm (a := false)]

/-- What an object reads as: it gives values of options that have their defaults elsewhere. -/
theorem ofObject?_eq_some_iff {members : List (Option String × Json)} :
    ofJson? (.object members) = some o ↔
      ∃ keyed : Record, members = keyed.map (fun m => (some m.1, m.2)) ∧
        Record.Once fields (keyed.map (·.1)) ∧ (∀ m ∈ keyed, o.Holds m.1 m.2) ∧
        o.filled (keyed.map (·.1)) = o := by
  rw [ofJson?, Option.bind_eq_bind, Option.bind_eq_some_iff, Record.ofPartial?]
  simp only [Record.ofMembers?_eq_some_iff, filled_eq_self_iff]
  constructor
  · rintro ⟨_, ⟨keyed, rfl, honce, rfl⟩, h⟩
    simp (disch := first | exact honce | decide) only [Option.bind_eq_bind,
      Option.bind_eq_some_iff, Option.pure_def, Record.withDefault?_eq_some_iff,
      Option.some.injEq] at h
    obtain ⟨_, ⟨hgap, hgap'⟩, _, ⟨hextended, hextended'⟩, _, ⟨hworkers, hworkers'⟩, _,
      ⟨hschemes, hschemes'⟩, _, ⟨hchange, hchange'⟩, _, ⟨hphrases, hphrases'⟩, _,
      ⟨hbulk, hbulk'⟩, rfl⟩ := h
    refine ⟨keyed, rfl, honce, ?_, hgap', hextended', hworkers', hschemes', hchange', hphrases',
      hbulk', rfl⟩
    rintro ⟨name, v⟩ hm
    dsimp only [Holds]
    split
    · exact uint32?_eq_some_iff.mp (hgap v hm)
    · exact uint32?_eq_some_iff.mp (hextended v hm)
    · exact amount?_eq_some_iff.mp (hworkers v hm)
    · exact pathSchemes?_eq_some_iff.mp (hschemes v hm)
    · exact bool?_eq_some_iff.mp (hchange v hm)
    · exact (list?_eq_some_iff_ofList text?_eq_some_iff).mp (hphrases v hm)
    · exact bool?_eq_some_iff.mp (hbulk v hm)
    · trivial
  · rintro ⟨keyed, rfl, honce, hheld, hgap, hextended, hworkers, hschemes, hchange, hphrases, hbulk,
      hobserved⟩
    refine ⟨_, ⟨keyed, rfl, honce, rfl⟩, ?_⟩
    simp (disch := first | exact honce | decide) only [Option.bind_eq_bind,
      Option.bind_eq_some_iff, Option.pure_def, Record.withDefault?_eq_some_iff,
      Option.some.injEq]
    refine ⟨o.gapLimit, ⟨fun v hv => uint32?_eq_some_iff.mpr (hheld _ hv), hgap⟩,
      o.extendedGapLimit, ⟨fun v hv => uint32?_eq_some_iff.mpr (hheld _ hv), hextended⟩,
      o.maxConcurrent, ⟨fun v hv => amount?_eq_some_iff.mpr (hheld _ hv), hworkers⟩,
      o.pathSchemes, ⟨fun v hv => pathSchemes?_eq_some_iff.mpr (hheld _ hv), hschemes⟩,
      o.scanChangeAddresses, ⟨fun v hv => bool?_eq_some_iff.mpr (hheld _ hv), hchange⟩,
      o.passphrases, ⟨fun v hv =>
        (list?_eq_some_iff_ofList text?_eq_some_iff).mpr (hheld _ hv), hphrases⟩,
      o.useBulkOperations, ⟨fun v hv => bool?_eq_some_iff.mpr (hheld _ hv), hbulk⟩, ?_⟩
    cases o
    cases hobserved
    rfl

/-- Options that give what was given of others have its values. -/
theorem Holds.filled {given : List String} {name : String} {v : Json} (h : o.Holds name v)
    (hname : name ∈ given) : (o.filled given).Holds name v := by
  unfold Holds at h ⊢
  split <;> simp only [ScanOptions.filled, if_pos hname] <;> exact h

theorem filled_filled (given : List String) : (o.filled given).filled given = o.filled given := by
  refine filled_eq_self_iff.mpr ?_
  simp +contextual [filled]

/-- Values of options read as those options, where they are given. -/
theorem ofJson?_of_holds {keyed : Record} (honce : Record.Once fields (keyed.map (·.1)))
    (hheld : ∀ m ∈ keyed, o.Holds m.1 m.2) :
    ofJson? (ofMembers keyed) = some (o.filled (keyed.map (·.1))) :=
  ofObject?_eq_some_iff.mpr ⟨keyed, rfl, honce,
    fun m hm => (hheld m hm).filled (List.mem_map_of_mem hm), filled_filled _⟩

/-- Values of fields that each some options have are those of options. -/
theorem exists_holds {keyed : Record} (honce : Record.Once fields (keyed.map (·.1)))
    (h : ∀ m ∈ keyed, ∃ o : ScanOptions, o.Holds m.1 m.2) :
    ∃ o : ScanOptions, ∀ m ∈ keyed, o.Holds m.1 m.2 := by
  have hfield : ∀ name ∈ fields, ∃ o : ScanOptions, ∀ v, (name, v) ∈ keyed → o.Holds name v := by
    intro name hname
    by_cases hgiven : ∃ v, (name, v) ∈ keyed
    · obtain ⟨v, hv⟩ := hgiven
      obtain ⟨o, ho⟩ := h _ hv
      refine ⟨o, fun w hw => ?_⟩
      have hone := (Record.lookup_known_eq_some_iff hname honce).mpr hw
      rw [(Record.lookup_known_eq_some_iff hname honce).mpr hv] at hone
      exact Option.some.inj hone ▸ ho
    · exact ⟨default, fun v hv => absurd ⟨v, hv⟩ hgiven⟩
  obtain ⟨gap, hgap⟩ := hfield "gap_limit" (by decide)
  obtain ⟨extended, hextended⟩ := hfield "extended_gap_limit" (by decide)
  obtain ⟨workers, hworkers⟩ := hfield "max_concurrent" (by decide)
  obtain ⟨schemes, hschemes⟩ := hfield "path_schemes" (by decide)
  obtain ⟨change, hchange⟩ := hfield "scan_change_addresses" (by decide)
  obtain ⟨phrases, hphrases⟩ := hfield "passphrases" (by decide)
  obtain ⟨bulk, hbulk⟩ := hfield "use_bulk_operations" (by decide)
  refine ⟨⟨gap.gapLimit, extended.extendedGapLimit, workers.maxConcurrent, schemes.pathSchemes,
    change.scanChangeAddresses, phrases.passphrases, bulk.useBulkOperations, false⟩, ?_⟩
  rintro ⟨name, v⟩ hm
  dsimp only [Holds]
  split
  · exact hgap v hm
  · exact hextended v hm
  · exact hworkers v hm
  · exact hschemes v hm
  · exact hchange v hm
  · exact hphrases v hm
  · exact hbulk v hm
  · trivial

/-- **Fields that are given are read and the others have their defaults.** An object may give any of
the fields, in any order, among members with any other names; none of them makes an observer.
It does not read exactly if some key is no text, some field is given twice, or some value is that of
its field in no options. -/
theorem options_given_in_part (text : String) :
    (∀ (o : ScanOptions) (members : Record), parse? text = some (ofMembers members) →
      Record.Once fields (members.map (·.1)) → (∀ m ∈ members, o.Holds m.1 m.2) →
      (parse? text).bind ofJson? = some (o.filled (members.map (·.1)))) ∧
    ∀ members : List (Option String × Json), parse? text = some (.object members) →
      ((parse? text).bind ofJson? = none ↔
        none ∈ members.map (·.1) ∨
        (∃ name ∈ fields, 1 < (members.map (·.1)).count (some name)) ∨
        ∃ name v, (some name, v) ∈ members ∧ ∀ o : ScanOptions, ¬ o.Holds name v) := by
  constructor
  · intro o members hparse honce hheld
    rw [hparse, Option.bind_some, ofJson?_of_holds honce hheld]
  · intro members hparse
    rw [hparse, Option.bind_some]
    constructor
    · intro hnone
      by_contra hright
      obtain ⟨htexts, hright⟩ := not_or.mp hright
      obtain ⟨honce, hvalues⟩ := not_or.mp hright
      obtain ⟨keyed, rfl⟩ := Record.exists_keyed htexts
      have honce : Record.Once fields (keyed.map (·.1)) := fun name hname => by
        refine Nat.le_of_not_lt fun htwice => honce ⟨name, hname, ?_⟩
        rwa [Record.count_keyed]
      obtain ⟨o, ho⟩ := exists_holds honce fun m hm => by
        by_contra hoff
        exact hvalues ⟨m.1, m.2, List.mem_map_of_mem hm, not_exists.mp hoff⟩
      have hread := ofJson?_of_holds honce ho
      rw [ofMembers, hnone] at hread
      cases hread
    · intro hwrong
      refine Option.eq_none_iff_forall_ne_some.mpr fun o ho => ?_
      obtain ⟨keyed, rfl, honce, hheld, -⟩ := ofObject?_eq_some_iff.mp ho
      obtain hbroken | ⟨name, hname, htwice⟩ | ⟨name, v, hmem, hoff⟩ := hwrong
      · simp at hbroken
      · rw [Record.count_keyed] at htwice
        exact absurd (honce name hname) (Nat.not_le.mpr htwice)
      · obtain ⟨m, hm, he⟩ := List.mem_map.mp hmem
        obtain ⟨rfl, rfl⟩ : m.1 = name ∧ m.2 = v := by simpa using he
        exact hoff o (hheld m hm)

/-- Fields out of order and with members that are none between them, the largest limit, and a scheme
whose members are out of order too. One more than the largest limit does not read. -/
theorem options_given_in_part_mixed :
    let old := PathScheme.legacy "old" 5 9
    let text := "\x7b\"path_schemes\":[\x7b\"description\":\"\",\"name\":\"old\",\"priority\":9," ++
      "\"is_legacy\":true,\"note\":[],\"scan_change\":false,\"accounts\":[0],\"purpose\":0," ++
      "\"coin_type\":5\x7d],\"note\":\x7b\"gap_limit\":1\x7d,\"progress_callback\":null," ++
      "\"note\":true,\"gap_limit\":4294967295,\"passphrases\":[\"one\",\"\"]\x7d"
    (parse? text).bind ofJson? =
      some { default with
        gapLimit := 4294967295, pathSchemes := [old], passphrases := ["one", ""] } ∧
    (parse? "\x7b\"gap_limit\":4294967296\x7d").bind ofJson? = none := by
  intro old text
  let scheme : Record := [("description", .text ""), ("name", .text "old"),
    ("priority", .natural 9), ("is_legacy", .bool true), ("note", ofList .text []),
    ("scan_change", .bool false),
    ("accounts", ofList ofUInt32 [0]), ("purpose", .natural 0), ("coin_type", .natural 5)]
  let members : Record := [("path_schemes", ofList ofMembers [scheme]),
    ("note", ofMembers [("gap_limit", .natural 1)]), ("progress_callback", .null),
    ("note", .bool true), ("gap_limit", .natural 4294967295),
    ("passphrases", ofList .text ["one", ""])]
  have hscheme : old.Form (ofMembers scheme) :=
    .object (by simp [PathScheme.members, scheme, old, PathScheme.legacy, PathScheme.purposeLegacy,
      ofUInt32]) (by decide)
  have hwritable : Writable (ofMembers members) := by
    have hnote : Writable (ofMembers [("gap_limit", .natural 1)]) := .object (by simp)
    have hold : Writable (ofMembers scheme) := .object (by simp [scheme])
    exact .object (by simp [members, hnote, hold])
  have hparse : parse? text = some (ofMembers members) := by
    have htext : text = (ofMembers members).render := by decide +kernel
    rw [htext, parse?_render hwritable]
  constructor
  · refine (options_given_in_part text).1
      { default with gapLimit := 4294967295, pathSchemes := [old], passphrases := ["one", ""] }
      members hparse (by decide) ?_
    simp [members, Holds, ofUInt32, ofList, hscheme]
  · have hover : Writable (ofMembers [("gap_limit", .natural 4294967296)]) := .object (by simp)
    refine ((options_given_in_part _).2 [(some "gap_limit", .natural 4294967296)]
      (parse?_render hover)).mpr (.inr (.inr ⟨"gap_limit", _, List.mem_cons_self, fun o ho => ?_⟩))
    have hlimit : 4294967296 = o.gapLimit.toNat := natural.inj ho
    have hlt := o.gapLimit.toNat_lt
    omega

end ScanOptions

end FundRecovery
