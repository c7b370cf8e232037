import BlockingStream.Config.Decode
import BlockingStream.Proofs.DocumentOrder

/-!
This module contains the proof that settings are read exactly: which entries are accepted, what settings they give, and
which fault is reported where there are several. The first entry that does not fit comes before all unusable values.
Whatever reads the text, it is only assumed to hand over distinct keys in the order of the text.
-/

namespace BlockingStream

/--
There is a character in the text that is no white space.
-/
def Text.Legible (s : String) : Prop := ∃ c ∈ s.toList, c.toNat ∉ Text.whiteSpace

theorem Text.isBlank_eq_false_iff_legible (s : String) : Text.isBlank s = false ↔ Text.Legible s := by
  simp [isBlank_eq_false_iff, isBlankChar, Legible]

namespace Config

/--
An entry that gives a setting a value of its kind.
-/
inductive Fits : String × Toml.Value → Prop where
  | label (s : String) : Fits ("label", .string s)
  | inboundCapacity (n : Nat) : Fits ("inbound_capacity", .integer n)
  | timerThreadName (s : String) : Fits ("timer_thread_name", .string s)

def Field.Admits : Field → Toml.Value → Prop
  | .label, .string _ | .timerThreadName, .string _ | .inboundCapacity, .integer _ => True
  | _, _ => False

/--
What is wrong with an entry that does not fit.
-/
inductive Objection : String × Toml.Value → Mismatch → Prop where
  | unknown {key : String} {value : Toml.Value} (h : ∀ field : Field, field.name ≠ key) :
      Objection (key, value) (.unknown key)
  | wrongType {field : Field} {value : Toml.Value} (h : ¬ field.Admits value) :
      Objection (field.name, value) (.wrongType field value)
  | outOfRange {i : Int} (h : i < 0) :
      Objection (Field.inboundCapacity.name, .integer i) (.outOfRange .inboundCapacity i)

def value (c : Config) : Field → Toml.Value
  | .label => .string c.label
  | .inboundCapacity => .integer c.inboundCapacity
  | .timerThreadName => .string c.timerThreadName

/--
The settings that entries give, where those that they leave out are as in `base`.
-/
structure Amends (base : Config) (entries : Toml.Entries) (c : Config) : Prop where
  given {field : Field} {value : Toml.Value} : (field.name, value) ∈ entries → c.value field = value
  omitted {field : Field} : (∀ value, (field.name, value) ∉ entries) → c.value field = base.value field

/--
The first setting, in the order of their check, that has no usable value.
-/
def Refuses (c : Config) : Field → Prop
  | .label => ¬ Text.Legible c.label
  | .inboundCapacity => Text.Legible c.label ∧ c.inboundCapacity = 0
  | .timerThreadName => Text.Legible c.label ∧ c.inboundCapacity ≠ 0 ∧ ¬ Text.Legible c.timerThreadName

variable {base c c' : Config} {entries : Toml.Entries} {key : String} {v : Toml.Value} {m : Mismatch} {field : Field}

theorem eq_of_value_eq (h : ∀ field, c.value field = c'.value field) : c = c' := by
  obtain ⟨label, capacity, name⟩ := c
  obtain ⟨label', capacity', name'⟩ := c'
  have hlabel := h .label
  have hcapacity := h .inboundCapacity
  have hname := h .timerThreadName
  simp only [value, Toml.Value.string.injEq, Toml.Value.integer.injEq, Int.natCast_inj] at hlabel hcapacity hname
  rw [hlabel, hcapacity, hname]

theorem Amends.unique (h : Amends base entries c) (h' : Amends base entries c') : c = c' := by
  apply eq_of_value_eq
  intro field
  by_cases hgiven : ∃ value, (field.name, value) ∈ entries
  . obtain ⟨value, hvalue⟩ := hgiven
    rw [h.given hvalue, h'.given hvalue]
  . rw [not_exists] at hgiven
    rw [h.omitted hgiven, h'.omitted hgiven]

theorem amends_iff_of_perm {other : Toml.Entries} (h : other.Perm entries)
    : Amends base other c ↔ Amends base entries c := by
  constructor
  . intro ⟨hgiven, homitted⟩
    simp only [h.mem_iff] at hgiven homitted
    exact ⟨hgiven, homitted⟩
  . intro ⟨hgiven, homitted⟩
    simp only [← h.mem_iff] at hgiven homitted
    exact ⟨hgiven, homitted⟩

@[simp]
theorem ofName?_name (field : Field) : Field.ofName? field.name = some field := by
  cases field <;> decide

theorem assign_of_fits (h : Fits (key, v)) (base : Config)
    : ∃ c, base.assign key v = .ok c ∧
        ∀ field : Field, c.value field = if field.name = key then v else base.value field := by
  cases h with
  | label s =>
    refine ⟨{ base with label := s }, rfl, ?_⟩
    intro field
    cases field <;> simp [value, Field.name]
  | inboundCapacity n =>
    refine ⟨{ base with inboundCapacity := n }, ?_, ?_⟩
    . have hrange : ¬ (n : Int) < 0 := by omega
      have hname : Field.ofName? "inbound_capacity" = some .inboundCapacity := ofName?_name .inboundCapacity
      simp [assign, hname, hrange]
    . intro field
      cases field <;> simp [value, Field.name]
  | timerThreadName s =>
    refine ⟨{ base with timerThreadName := s }, rfl, ?_⟩
    intro field
    cases field <;> simp [value, Field.name]

theorem assign_of_objection (h : Objection (key, v) m) (base : Config) : base.assign key v = .error m := by
  cases h with
  | unknown hunknown =>
    have hname : Field.ofName? key = none := by simp [Field.ofName?, hunknown]
    simp [assign, hname]
  | @wrongType field _ hkind =>
    unfold assign
    rw [ofName?_name]
    cases field with
    | inboundCapacity =>
      cases v with
      | integer i => exact absurd trivial hkind
      | _ => rfl
    | _ =>
      cases v with
      | string s => exact absurd trivial hkind
      | _ => rfl
  | outOfRange hrange => simp [assign, hrange]

theorem fits_or_objection (entry : String × Toml.Value) : Fits entry ∨ ∃ m, Objection entry m := by
  obtain ⟨key, v⟩ := entry
  by_cases hknown : ∃ field : Field, field.name = key
  . obtain ⟨field, rfl⟩ := hknown
    by_cases hkind : field.Admits v
    . cases field with
      | inboundCapacity =>
        cases v with
        | integer i =>
          by_cases hrange : i < 0
          . exact Or.inr ⟨_, .outOfRange hrange⟩
          . left
            obtain ⟨n, rfl⟩ := Int.eq_ofNat_of_zero_le (Int.not_lt.1 hrange)
            exact .inboundCapacity n
        | _ => exact absurd hkind id
      | label =>
        cases v with
        | string s => exact Or.inl (.label s)
        | _ => exact absurd hkind id
      | timerThreadName =>
        cases v with
        | string s => exact Or.inl (.timerThreadName s)
        | _ => exact absurd hkind id
    . exact Or.inr ⟨_, .wrongType hkind⟩
  . right
    rw [not_exists] at hknown
    exact ⟨_, .unknown hknown⟩

theorem not_fits_of_objection (h : Objection (key, v) m) : ¬ Fits (key, v) := by
  intro hfits
  obtain ⟨c, hassign, _⟩ := assign_of_fits hfits {}
  rw [assign_of_objection h] at hassign
  contradiction

def assignAll (base : Config) (entries : Toml.Entries) : Except Mismatch Config :=
  entries.foldlM (fun c entry => c.assign entry.1 entry.2) base

theorem assignAll_cons_of_ok {rest : Toml.Entries} (h : base.assign key v = .ok c)
    : base.assignAll ((key, v) :: rest) = c.assignAll rest := by
  simp only [assignAll, List.foldlM_cons, h]
  rfl

theorem assignAll_cons_of_error {rest : Toml.Entries} (h : base.assign key v = .error m)
    : base.assignAll ((key, v) :: rest) = .error m := by
  simp only [assignAll, List.foldlM_cons, h]
  rfl

theorem assignAll_eq_error_iff (base : Config) (entries : Toml.Entries)
    : base.assignAll entries = .error m ↔
      ∃ before entry after, entries = before ++ entry :: after ∧ (∀ e ∈ before, Fits e) ∧ Objection entry m := by
  induction entries generalizing base with
  | nil =>
    apply iff_of_false
    . intro h
      contradiction
    . rintro ⟨before, entry, after, h, _⟩
      simp at h
  | cons head rest ih =>
    obtain ⟨key, v⟩ := head
    rcases fits_or_objection (key, v) with hfits | ⟨m', hobjection⟩
    . obtain ⟨c, hassign, _⟩ := assign_of_fits hfits base
      rw [assignAll_cons_of_ok hassign, ih c]
      constructor
      . rintro ⟨before, entry, after, rfl, hbefore, hobjection⟩
        exact ⟨(key, v) :: before, entry, after, rfl, List.forall_mem_cons.2 ⟨hfits, hbefore⟩, hobjection⟩
      . rintro ⟨before, entry, after, hsplit, hbefore, hobjection⟩
        cases before with
        | nil =>
          cases hsplit
          exact absurd hfits (not_fits_of_objection hobjection)
        | cons first before =>
          cases hsplit
          exact ⟨before, entry, after, rfl, (List.forall_mem_cons.1 hbefore).2, hobjection⟩
    . rw [assignAll_cons_of_error (assign_of_objection hobjection base)]
      constructor
      . intro h
        cases h
        exact ⟨[], (key, v), rest, rfl, by simp, hobjection⟩
      . rintro ⟨before, entry, after, hsplit, hbefore, hobjection'⟩
        cases before with
        | nil =>
          cases hsplit
          rw [← assign_of_objection hobjection base, assign_of_objection hobjection' base]
        | cons first before =>
          cases hsplit
          exact absurd (List.forall_mem_cons.1 hbefore).1 (not_fits_of_objection hobjection)

theorem fits_of_assignAll (h : base.assignAll entries = .ok c) : ∀ entry ∈ entries, Fits entry := by
  induction entries generalizing base with
  | nil => simp
  | cons head rest ih =>
    obtain ⟨key, v⟩ := head
    rcases fits_or_objection (key, v) with hfits | ⟨m, hobjection⟩
    . obtain ⟨c', hassign, _⟩ := assign_of_fits hfits base
      rw [assignAll_cons_of_ok hassign] at h
      exact List.forall_mem_cons.2 ⟨hfits, ih h⟩
    . rw [assignAll_cons_of_error (assign_of_objection hobjection base)] at h
      contradiction

theorem assignAll_of_fits (hdistinct : (entries.map Prod.fst).Nodup) (hfits : ∀ entry ∈ entries, Fits entry)
    (base : Config)
    : ∃ c, base.assignAll entries = .ok c ∧ Amends base entries c := by
  induction entries generalizing base with
  | nil => exact ⟨base, rfl, by simp, fun _ => rfl⟩
  | cons head rest ih =>
    obtain ⟨key, v⟩ := head
    rw [List.map_cons, List.nodup_cons] at hdistinct
    obtain ⟨hhead, hrest⟩ := List.forall_mem_cons.1 hfits
    obtain ⟨c, hassign, hvalue⟩ := assign_of_fits hhead base
    obtain ⟨c', hc', hamends⟩ := ih hdistinct.2 hrest c
    refine ⟨c', (assignAll_cons_of_ok hassign).trans hc', ?_, ?_⟩
    . intro field value hmem
      rcases List.mem_cons.1 hmem with hmem | hmem
      . cases hmem
        -- no later entry has the same key
        have habsent : ∀ later, (field.name, later) ∉ rest := fun later hlater =>
          hdistinct.1 (List.mem_map.2 ⟨_, hlater, rfl⟩)
        rw [hamends.omitted habsent, hvalue, if_pos rfl]
      . exact hamends.given hmem
    . intro field habsent
      have hrest : ∀ value, (field.name, value) ∉ rest := fun value hmem =>
        habsent value (List.mem_cons_of_mem _ hmem)
      have hne : field.name ≠ key := by
        rintro rfl
        exact habsent v List.mem_cons_self
      rw [hamends.omitted hrest, hvalue, if_neg hne]

theorem assignAll_eq_ok_iff (hdistinct : (entries.map Prod.fst).Nodup) (base : Config)
    : base.assignAll entries = .ok c ↔ (∀ entry ∈ entries, Fits entry) ∧ Amends base entries c := by
  constructor
  . intro h
    have hfits := fits_of_assignAll h
    obtain ⟨c', hc', hamends⟩ := assignAll_of_fits hdistinct hfits base
    rw [h] at hc'
    cases hc'
    exact ⟨hfits, hamends⟩
  . rintro ⟨hfits, hamends⟩
    obtain ⟨c', hc', hamends'⟩ := assignAll_of_fits hdistinct hfits base
    rw [hc', hamends.unique hamends']

theorem accepts_label : c.accepts .label = true ↔ Text.Legible c.label := by
  rw [accepts, Bool.not_eq_true', Text.isBlank_eq_false_iff_legible]

theorem accepts_inboundCapacity : c.accepts .inboundCapacity = true ↔ c.inboundCapacity ≠ 0 := by
  simp [accepts]

theorem accepts_timerThreadName : c.accepts .timerThreadName = true ↔ Text.Legible c.timerThreadName := by
  rw [accepts, Bool.not_eq_true', Text.isBlank_eq_false_iff_legible]

theorem forall_accepts_iff
    : (∀ field, c.accepts field = true) ↔
      Text.Legible c.label ∧ c.inboundCapacity ≠ 0 ∧ Text.Legible c.timerThreadName := by
  rw [← accepts_label, ← accepts_inboundCapacity, ← accepts_timerThreadName]
  constructor
  . intro h
    exact ⟨h _, h _, h _⟩
  . rintro ⟨hlabel, hcapacity, hname⟩ field
    cases field <;> assumption

theorem refuses_iff
    : c.Refuses field ↔
      match field with
      | .label => c.accepts .label = false
      | .inboundCapacity => c.accepts .label = true ∧ c.accepts .inboundCapacity = false
      | .timerThreadName =>
        c.accepts .label = true ∧ c.accepts .inboundCapacity = true ∧ c.accepts .timerThreadName = false := by
  simp only [← Bool.not_eq_true]
  cases field <;>
    simp only [Refuses, accepts_label, accepts_inboundCapacity, accepts_timerThreadName, ne_eq, Decidable.not_not]

theorem invalidField?_eq_some_iff : c.invalidField? = some field ↔ c.Refuses field := by
  rw [refuses_iff]
  unfold invalidField? Field.all
  cases hlabel : c.accepts .label with
  | false => cases field <;> simp [hlabel]
  | true =>
    cases hcapacity : c.accepts .inboundCapacity with
    | false => cases field <;> simp [hlabel, hcapacity]
    | true =>
      cases hname : c.accepts .timerThreadName with
      | false => cases field <;> simp [hlabel, hcapacity, hname]
      | true => cases field <;> simp [hlabel, hcapacity, hname]

theorem validate_eq_invalid_iff : c.validate = .error (.invalid field) ↔ c.Refuses field := by
  rw [← invalidField?_eq_some_iff]
  unfold validate
  cases c.invalidField? <;> simp

theorem validate_ne_of_not_invalid {e : ConfigError} (h : ∀ field, e ≠ .invalid field) : c.validate ≠ .error e := by
  unfold validate
  cases c.invalidField? with
  | none => simp
  | some field =>
    intro heq
    cases heq
    exact h field rfl

theorem ofEntries_of_ok (h : assignAll {} entries = .ok c) : ofEntries entries = c.validate := by
  have hdecode : decode entries = .ok c := h
  rw [ofEntries, hdecode]

theorem ofEntries_of_error (h : assignAll {} entries = .error m) : ofEntries entries = .error (.mismatch m) := by
  have hdecode : decode entries = .error m := h
  rw [ofEntries, hdecode]

theorem ofEntries_eq_ok_iff
    : ofEntries entries = .ok c ↔
      assignAll {} entries = .ok c ∧
        Text.Legible c.label ∧ c.inboundCapacity ≠ 0 ∧ Text.Legible c.timerThreadName := by
  rw [← forall_accepts_iff]
  cases hassign : assignAll {} entries with
  | error m => simp [ofEntries_of_error hassign]
  | ok c' =>
    rw [ofEntries_of_ok hassign, validate_eq_ok_iff, Except.ok.injEq, eq_comm]
    apply and_congr_right
    rintro rfl
    rfl

theorem ofEntries_eq_mismatch_iff : ofEntries entries = .error (.mismatch m) ↔ assignAll {} entries = .error m := by
  cases hassign : assignAll {} entries with
  | error m' => simp [ofEntries_of_error hassign]
  | ok c =>
    rw [ofEntries_of_ok hassign]
    simp [validate_ne_of_not_invalid]

theorem ofReader_of_ok {read : Toml.Reader} {text : String} {d : Toml.Document} (h : read text = .ok d)
    : ofReader read text = ofEntries d.entries := by
  rw [ofReader, h]

theorem mismatch_iff_of_inOrder {d : Toml.Document} {text : List Char} (h : d.InOrder text)
    : ofEntries d.entries = .error (.mismatch m) ↔
      ∃ entry ∈ d.entries, Objection entry m ∧ ∀ other ∈ d.entries, d.Before other.1 entry.1 → Fits other := by
  have hbefore := List.pairwise_map.1 h.before
  rw [ofEntries_eq_mismatch_iff, assignAll_eq_error_iff]
  constructor
  . rintro ⟨before, entry, after, hsplit, hfits, hobjection⟩
    rw [hsplit] at hbefore ⊢
    refine ⟨entry, by simp, hobjection, ?_⟩
    intro other hother hstands
    rcases List.mem_append.1 hother with hother | hother
    . exact hfits other hother
    . rcases List.mem_cons.1 hother with rfl | hother
      . exact absurd hstands Toml.Document.not_before_self
      . have hlater := List.rel_of_pairwise_cons (List.pairwise_append.1 hbefore).2.1 hother
        exact absurd hstands (Toml.Document.not_before_of_before hlater)
  . rintro ⟨entry, hentry, hobjection, hfits⟩
    obtain ⟨before, after, hsplit⟩ := List.append_of_mem hentry
    refine ⟨before, entry, after, hsplit, ?_, hobjection⟩
    rw [hsplit] at hbefore
    intro other hother
    have hstands := (List.pairwise_append.1 hbefore).2.2 other hother entry List.mem_cons_self
    exact hfits other (by rw [hsplit]; exact List.mem_append_left _ hother) hstands

theorem ofEntries_eq_invalid_iff
    : ofEntries entries = .error (.invalid field) ↔ ∃ c, assignAll {} entries = .ok c ∧ c.Refuses field := by
  cases hassign : assignAll {} entries with
  | error m => simp [ofEntries_of_error hassign]
  | ok c => simp [ofEntries_of_ok hassign, validate_eq_invalid_iff]

/--
Entries are accepted just if each of them gives a setting a value of its kind and all settings, given or not, are
usable, and then give these settings, in whatever order they come. Otherwise the first entry that does not fit is
reported, and if they all fit the first setting that is not usable. If a text is read in order, then the first entry is
the one that stands before the others in the text.
-/
theorem ofEntries_exact (hdistinct : (entries.map Prod.fst).Nodup)
    : (∀ c, ofEntries entries = .ok c ↔
        (∀ entry ∈ entries, Fits entry) ∧ Amends {} entries c ∧
          Text.Legible c.label ∧ c.inboundCapacity ≠ 0 ∧ Text.Legible c.timerThreadName) ∧
      (∀ c, ofEntries entries = .ok c → c.validate = .ok c) ∧
      (∀ other : Toml.Entries, other.Perm entries → ∀ c, ofEntries other = .ok c ↔ ofEntries entries = .ok c) ∧
      (∀ m, ofEntries entries = .error (.mismatch m) ↔
        ∃ before entry after, entries = before ++ entry :: after ∧ (∀ e ∈ before, Fits e) ∧ Objection entry m) ∧
      (∀ field, ofEntries entries = .error (.invalid field) ↔
        (∀ entry ∈ entries, Fits entry) ∧ ∃ c, Amends {} entries c ∧ c.Refuses field) ∧
      (∀ rest, ofEntries entries ≠ .error (.malformed rest)) ∧
      ∀ (read : Toml.Reader) [Toml.LawfulReader read] text d, read text = .ok d → d.entries = entries →
        ofReader read text = ofEntries entries ∧
        ∀ m, ofReader read text = .error (.mismatch m) ↔
          ∃ entry ∈ entries, Objection entry m ∧ ∀ other ∈ entries, d.Before other.1 entry.1 → Fits other := by
  have haccept : ∀ {entries : Toml.Entries}, (entries.map Prod.fst).Nodup → ∀ c, ofEntries entries = .ok c ↔
      (∀ entry ∈ entries, Fits entry) ∧ Amends {} entries c ∧
        Text.Legible c.label ∧ c.inboundCapacity ≠ 0 ∧ Text.Legible c.timerThreadName := by
    intro entries hdistinct c
    rw [ofEntries_eq_ok_iff, assignAll_eq_ok_iff hdistinct, and_assoc]
  refine ⟨haccept hdistinct, ?_, ?_, ?_, ?_, ?_, ?_⟩
  . intro c h
    rw [validate_eq_ok_iff, forall_accepts_iff]
    exact ⟨rfl, (ofEntries_eq_ok_iff.1 h).2⟩
  . intro other hperm c
    rw [haccept hdistinct, haccept ((hperm.map Prod.fst).nodup_iff.2 hdistinct), amends_iff_of_perm hperm]
    simp only [hperm.mem_iff]
  . intro m
    rw [ofEntries_eq_mismatch_iff, assignAll_eq_error_iff]
  . intro field
    simp only [ofEntries_eq_invalid_iff, assignAll_eq_ok_iff hdistinct, and_assoc, exists_and_left]
  . intro rest h
    cases hassign : assignAll {} entries with
    | error m =>
      rw [ofEntries_of_error hassign] at h
      cases h
    | ok c =>
      rw [ofEntries_of_ok hassign] at h
      exact validate_ne_of_not_invalid (by simp) h
  . rintro read _ text d hread rfl
    rw [ofReader_of_ok hread]
    exact ⟨rfl, fun m => mismatch_iff_of_inOrder (Toml.LawfulReader.inOrder hread)⟩

/--
Accepted values are kept with the white space around them. A blank label goes unnoticed as long as there is no capacity
like the one that comes behind it. A text in which the capacity stands before a table that does not belong there is
faulted for the capacity.
-/
theorem padded_and_faulty_exact
    : ([("timer_thread_name", Toml.Value.string " t "), ("label", .string "\t a")].map Prod.fst).Nodup ∧
      ofEntries [("timer_thread_name", .string " t "), ("label", .string "\t a")] =
        .ok { label := "\t a", timerThreadName := " t " } ∧
      ([("label", Toml.Value.string " "), ("inbound_capacity", .integer (-1)),
        ("colour", .boolean true)].map Prod.fst).Nodup ∧
      ofEntries [("label", .string " "), ("inbound_capacity", .integer (-1)), ("colour", .boolean true)] =
        .error (.mismatch (.outOfRange .inboundCapacity (-1))) ∧
      ofReader Toml.Document.reader "inbound_capacity = -1\n[colour]" =
        .error (.mismatch (.outOfRange .inboundCapacity (-1))) := by
  refine ⟨by decide, ?_, by decide, ?_, ?_⟩
  . refine ((ofEntries_exact (by decide)).1 _).2 ⟨?_, ⟨?_, ?_⟩, ?_, by decide, ?_⟩
    . intro entry hentry
      simp only [List.mem_cons, List.not_mem_nil, or_false] at hentry
      rcases hentry with rfl | rfl
      . exact .timerThreadName _
      . exact .label _
    . intro field value hmem
      cases field <;> simp_all [Field.name, Config.value]
    . intro field habsent
      cases field <;> simp_all [Field.name, Config.value]
    . exact ⟨'a', by decide, by decide⟩
    . exact ⟨'t', by decide, by decide⟩
  . refine ((ofEntries_exact (by decide)).2.2.2.1 _).2
      ⟨[("label", .string " ")], _, _, rfl, ?_, .outOfRange (by decide)⟩
    intro entry hentry
    rw [List.mem_singleton.1 hentry]
    exact .label _
  . have hread : Toml.Document.reader "inbound_capacity = -1\n[colour]" = .ok _ := rfl
    have hordered := (ofEntries_exact (by decide)).2.2.2.2.2.2 Toml.Document.reader _ _ hread rfl
    refine (hordered.2 _).2 ⟨_, List.mem_cons_self, .outOfRange (by decide), ?_⟩
    intro other hother hstands
    rcases List.mem_cons.1 hother with rfl | hother
    . exact absurd hstands Toml.Document.not_before_self
    . rw [List.mem_singleton.1 hother] at hstands
      exact absurd hstands (Toml.Document.not_before_of_before ⟨_, _, rfl, rfl, by decide⟩)

end Config

end BlockingStream
