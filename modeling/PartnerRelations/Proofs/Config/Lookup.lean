/-
# `Proofs.Config.Lookup` — from a look-up of names to the pages that are served

What is found under the name of a setting counts without the blanks around it, and as absent if it
is blank.  Every look-up leads to one of three ends:

    a setting is malformed          the first one, in the order of reading, is reported
    the values do not fit together  the first reason is reported
    neither                         they are the configuration (`GateConfig.Follows`)

A configuration that is accepted bounds the pages of the service (`GateConfig.BoundsPages`): a
request that names no size gets the default, any other a size from 1 to the largest, and a search
asks for the page of such a request as it is.
-/
import PartnerRelations.Proofs.Config.Value
import PartnerRelations.Proofs.Page
import PartnerRelations.Proofs.Relation.Evolution
import PartnerRelations.Service.Find

namespace PartnerRelations

variable {lookup : String → Option String}

namespace Setting

/-! ## The text of a setting -/

/-- Nothing is found under the name of the setting, or nothing but blank characters. -/
def IsBlank (x : Setting) (lookup : String → Option String) : Prop :=
  ∀ s, lookup x.key = some s → Text.Blank s

/-- What is found under the name of the setting is `t`, with blanks around it or none. -/
def Holds (x : Setting) (lookup : String → Option String) (t : String) : Prop :=
  ∃ s, lookup x.key = some s ∧ Text.Core s t

variable {x y : Setting} {s t : String}

theorem value?_eq_none : GateConfig.value? lookup x = none ↔ x.IsBlank lookup := by
  unfold GateConfig.value? IsBlank
  cases lookup x.key with
  | none => simp
  | some s => simp [Option.filter_eq_none_iff, Text.trim_eq_empty_iff]

theorem value?_eq_some : GateConfig.value? lookup x = some t ↔ x.Holds lookup t := by
  unfold GateConfig.value? Holds
  cases lookup x.key with
  | none => simp
  | some s => simp [Option.filter_eq_some_iff, ← Text.trim_eq_iff_core]

theorem Holds.trim_eq (h : x.Holds lookup t) : Text.trim t = t := by
  obtain ⟨s, -, hcore⟩ := h
  rw [← hcore.trim_eq, Text.trim_trim]

theorem Holds.ne_empty (h : x.Holds lookup t) : t ≠ "" := by
  obtain ⟨s, -, hcore⟩ := h
  exact hcore.ne_empty

theorem Holds.unique (h : x.Holds lookup s) (h' : x.Holds lookup t) : s = t :=
  Option.some.inj ((value?_eq_some.2 h).symm.trans (value?_eq_some.2 h'))

theorem IsBlank.not_holds (h : x.IsBlank lookup) : ¬ x.Holds lookup t := by
  intro ht
  cases (value?_eq_none.2 h).symm.trans (value?_eq_some.2 ht)

/-! ## The value of a setting -/

/-- The setting has the value `a`: its text means `a`, or it is blank and `a` is the default. -/
def Gives {α : Type} (x : Setting) (lookup : String → Option String) (means : String → α → Prop)
    (default_ a : α) : Prop :=
  (x.IsBlank lookup ∧ a = default_) ∨ ∃ t, x.Holds lookup t ∧ means t a

/-- The text writes a number that fits a word. -/
def Number (t : String) (w : UInt32) : Prop :=
  Text.Numeral t w.toNat

/-- The text names a log format. -/
def Format (t : String) (format : LogFormat) : Prop :=
  format.Spells t

/-- The texts that a setting can have. -/
def Takes : Setting → String → Prop
  | .databaseUrl, _ => True
  | .logFormat, t => ∃ format, Format t format
  | _, t => ∃ w, Number t w

/-- What is wrong with a text that a setting cannot have. -/
def Faults : Setting → String → ValueError → Prop
  | .databaseUrl, _, _ => False
  | .logFormat, t, e => e = .unknownLogFormat (Text.lower t)
  | _, t, e => Text.NumeralFault t e

/-- The setting has a text that it cannot have. -/
def Malformed (x : Setting) (lookup : String → Option String) : Prop :=
  ∃ t, x.Holds lookup t ∧ ¬ x.Takes t

/-- The settings in the order in which their values are read. -/
def readOrder : List Setting :=
  [.dbMaxConnections, .maxPageSize, .defaultPageSize, .upsertRetries, .logFormat]

/-- What is reported of the first malformed one of some settings. -/
inductive Reported (lookup : String → Option String) : List Setting → ConfigError → Prop
  | first {x xs t reason} : x.Holds lookup t → ¬ x.Takes t → x.Faults t reason →
      Reported lookup (x :: xs) (.invalidValue x t reason)
  | later {x xs e} : ¬ x.Malformed lookup → Reported lookup xs e → Reported lookup (x :: xs) e

/-- The texts that a setting can have are read as what they mean, and the others are refused. -/
structure ReadBy {α : Type} (x : Setting) (read : String → Except ValueError α)
    (means : String → α → Prop) : Prop where
  takes : ∀ {t}, x.Takes t ↔ ∃ a, means t a
  eq_ok : ∀ {t a}, Text.trim t = t → t ≠ "" → (read t = .ok a ↔ means t a)
  eq_error : ∀ {t e}, Text.trim t = t → t ≠ "" → (read t = .error e ↔ ¬ x.Takes t ∧ x.Faults t e)

theorem readBy_readLogFormat : ReadBy .logFormat readLogFormat Format where
  takes := Iff.rfl
  eq_ok htrim _ := readLogFormat_eq_ok htrim
  eq_error htrim _ := readLogFormat_eq_error htrim

theorem not_number_of_fault {e : ValueError} (hne : t ≠ "") (h : Text.NumeralFault t e) :
    ¬ ∃ w, Number t w := by
  rintro ⟨w, hw⟩
  cases ((readWord_eq_ok hne).2 hw).symm.trans ((readWord_eq_error hne).2 h)

theorem readBy_readWord (x : Setting) (hx : x ≠ .databaseUrl ∧ x ≠ .logFormat) :
    x.ReadBy readWord Number := by
  have refused {t e} (hne : t ≠ "") :
      readWord t = .error e ↔ (¬ ∃ w, Number t w) ∧ Text.NumeralFault t e := by
    rw [readWord_eq_error hne]
    exact ⟨fun h => ⟨not_number_of_fault hne h, h⟩, And.right⟩
  cases x with
  | databaseUrl => exact absurd rfl hx.1
  | logFormat => exact absurd rfl hx.2
  | _ => exact ⟨Iff.rfl, fun _ => readWord_eq_ok, fun _ => refused⟩

section ReadBy

variable {α : Type} {read : String → Except ValueError α} {means : String → α → Prop}
  {default_ a : α} {e : ConfigError}

theorem ReadBy.valueOr_eq_ok (h : x.ReadBy read means) :
    GateConfig.valueOr lookup x read default_ = .ok a ↔ x.Gives lookup means default_ a := by
  unfold GateConfig.valueOr
  split
  · next hblank =>
    have hblank := value?_eq_none.1 hblank
    constructor
    · intro hread
      cases hread
      exact .inl ⟨hblank, rfl⟩
    · rintro (⟨-, rfl⟩ | ⟨t, ht, -⟩)
      · rfl
      · exact absurd ht hblank.not_holds
  · next t ht =>
    have ht := value?_eq_some.1 ht
    rw [Relation.mapError_eq_ok, h.eq_ok ht.trim_eq ht.ne_empty]
    constructor
    · exact fun ha => .inr ⟨t, ht, ha⟩
    · rintro (⟨hblank, -⟩ | ⟨s, hs, ha⟩)
      · exact absurd ht hblank.not_holds
      · exact hs.unique ht ▸ ha

theorem ReadBy.valueOr_eq_error (h : x.ReadBy read means) :
    GateConfig.valueOr lookup x read default_ = .error e ↔
      ∃ t reason, x.Holds lookup t ∧ ¬ x.Takes t ∧ x.Faults t reason ∧
        e = .invalidValue x t reason := by
  unfold GateConfig.valueOr
  split
  · next hblank =>
    have hblank := value?_eq_none.1 hblank
    constructor
    · intro hread
      cases hread
    · rintro ⟨t, reason, ht, -⟩
      exact absurd ht hblank.not_holds
  · next t ht =>
    have ht := value?_eq_some.1 ht
    rw [Relation.mapError_eq_error]
    constructor
    · rintro ⟨reason, hreason, he⟩
      obtain ⟨htakes, hfaults⟩ := (h.eq_error ht.trim_eq ht.ne_empty).1 hreason
      exact ⟨t, reason, ht, htakes, hfaults, he⟩
    · rintro ⟨s, reason, hs, htakes, hfaults, he⟩
      obtain rfl := hs.unique ht
      exact ⟨reason, (h.eq_error ht.trim_eq ht.ne_empty).2 ⟨htakes, hfaults⟩, he⟩

theorem ReadBy.not_malformed (h : x.ReadBy read means) (hgives : x.Gives lookup means default_ a) :
    ¬ x.Malformed lookup := by
  rintro ⟨t, ht, htakes⟩
  rcases hgives with ⟨hblank, -⟩ | ⟨s, hs, ha⟩
  · exact hblank.not_holds ht
  · exact htakes (h.takes.2 ⟨a, hs.unique ht ▸ ha⟩)

theorem ReadBy.exists_valueOr (h : x.ReadBy read means) (hsound : ¬ x.Malformed lookup) :
    ∃ a, GateConfig.valueOr lookup x read default_ = .ok a := by
  cases hread : GateConfig.valueOr lookup x read default_ with
  | ok a => exact ⟨a, rfl⟩
  | error e =>
    obtain ⟨t, reason, ht, htakes, -⟩ := h.valueOr_eq_error.1 hread
    exact absurd ⟨t, ht, htakes⟩ hsound

/-- The setting that is read first is reported, or else a later one is. -/
theorem ReadBy.reported_cons (h : x.ReadBy read means) (default_ : α) {xs : List Setting} :
    Reported lookup (x :: xs) e ↔ GateConfig.valueOr lookup x read default_ = .error e ∨
      ∃ a, GateConfig.valueOr lookup x read default_ = .ok a ∧ Reported lookup xs e := by
  constructor
  · intro hreported
    cases hreported with
    | first ht htakes hfaults =>
      exact .inl (h.valueOr_eq_error.2 ⟨_, _, ht, htakes, hfaults, rfl⟩)
    | later hsound hlater =>
      obtain ⟨a, ha⟩ := h.exists_valueOr hsound
      exact .inr ⟨a, ha, hlater⟩
  · rintro (herror | ⟨a, ha, hlater⟩)
    · obtain ⟨t, reason, ht, htakes, hfaults, rfl⟩ := h.valueOr_eq_error.1 herror
      exact .first ht htakes hfaults
    · exact .later (h.not_malformed (h.valueOr_eq_ok.1 ha)) hlater

theorem not_reported_nil : ¬ Reported lookup [] e :=
  fun h => by cases h

end ReadBy

end Setting

namespace GateConfig

open Setting

/-! ## A configuration and its texts -/

/-- The configuration has the values that are found under the names of the settings. -/
structure Follows (c : GateConfig) (lookup : String → Option String) : Prop where
  databaseUrl : ∀ t, c.databaseUrl = some t ↔ Setting.databaseUrl.Holds lookup t
  dbMaxConnections : Setting.dbMaxConnections.Gives lookup Number
    standard.dbMaxConnections c.dbMaxConnections
  maxPageSize : Setting.maxPageSize.Gives lookup Number standard.maxPageSize c.maxPageSize
  defaultPageSize : Setting.defaultPageSize.Gives lookup Number
    standard.defaultPageSize c.defaultPageSize
  upsertRetries : Setting.upsertRetries.Gives lookup Number
    standard.upsertRetries c.upsertRetries
  logFormat : Setting.logFormat.Gives lookup Format standard.logFormat c.logFormat

/-- The values of the configuration fit together. -/
structure Consistent (c : GateConfig) : Prop where
  defaultPageSize_pos : 1 ≤ c.defaultPageSize
  default_le_max : c.defaultPageSize ≤ c.maxPageSize
  dbMaxConnections_pos : 1 ≤ c.dbMaxConnections

/-- The first reason why the values do not fit together. -/
inductive Clashes (c : GateConfig) : ConfigError → Prop
  | emptyPages : c.maxPageSize = 0 ∨ c.defaultPageSize = 0 → Clashes c .emptyPages
  | defaultAboveMax : 1 ≤ c.maxPageSize → c.maxPageSize < c.defaultPageSize →
      Clashes c (.defaultAboveMax c.defaultPageSize c.maxPageSize)
  | noConnections : 1 ≤ c.defaultPageSize → c.defaultPageSize ≤ c.maxPageSize →
      c.dbMaxConnections = 0 → Clashes c .noConnections

variable {c : GateConfig} {e : ConfigError}

theorem one_le_iff {w : UInt32} : 1 ≤ w ↔ w ≠ 0 := by
  rw [UInt32.le_iff_toNat_le, Ne, ← UInt32.toNat_inj]
  exact Nat.one_le_iff_ne_zero

theorem pages_not_empty (hdefault : 1 ≤ c.defaultPageSize) (hmax : 1 ≤ c.maxPageSize) :
    ¬ (c.maxPageSize = 0 ∨ c.defaultPageSize = 0) :=
  not_or.2 ⟨one_le_iff.1 hmax, one_le_iff.1 hdefault⟩

theorem validate_eq_ok : c.validate = .ok () ↔ c.Consistent := by
  unfold validate
  split
  · next hempty =>
    refine iff_of_false (by simp) fun h => ?_
    have hmax := UInt32.le_trans h.defaultPageSize_pos h.default_le_max
    exact pages_not_empty h.defaultPageSize_pos hmax hempty
  · next hfull =>
    split
    · next habove =>
      exact iff_of_false (by simp) fun h => UInt32.not_lt.2 h.default_le_max habove
    · next hle =>
      split
      · next hnone =>
        exact iff_of_false (by simp) fun h => one_le_iff.1 h.dbMaxConnections_pos hnone
      · next hconnections =>
        exact iff_of_true rfl ⟨one_le_iff.2 (not_or.1 hfull).2, UInt32.not_lt.1 hle,
          one_le_iff.2 hconnections⟩

theorem validate_eq_error : c.validate = .error e ↔ c.Clashes e := by
  constructor
  · intro h
    unfold validate at h
    split at h
    · next hempty =>
      cases h
      exact .emptyPages hempty
    · next hfull =>
      obtain ⟨hmax, hdefault⟩ := not_or.1 hfull
      split at h
      · next habove =>
        cases h
        exact .defaultAboveMax (one_le_iff.2 hmax) habove
      · next hle =>
        split at h
        · next hconnections =>
          cases h
          exact .noConnections (one_le_iff.2 hdefault) (UInt32.not_lt.1 hle) hconnections
        · cases h
  · rintro (hempty | ⟨hmax, habove⟩ | ⟨hdefault, hle, hconnections⟩)
    · rw [validate, if_pos hempty]
    · have hfull := pages_not_empty (UInt32.le_trans hmax (UInt32.le_of_lt habove)) hmax
      rw [validate, if_neg hfull, if_pos habove]
    · have hfull := pages_not_empty hdefault (UInt32.le_trans hdefault hle)
      rw [validate, if_neg hfull, if_neg (UInt32.not_lt.2 hle), if_pos hconnections]

/-- A configuration follows the texts only if each setting can have its text. -/
theorem Follows.not_malformed (h : c.Follows lookup) (x : Setting) : ¬ x.Malformed lookup := by
  cases x with
  | databaseUrl =>
    rintro ⟨t, -, htakes⟩
    exact htakes trivial
  | dbMaxConnections =>
    exact (readBy_readWord .dbMaxConnections (by decide)).not_malformed h.dbMaxConnections
  | maxPageSize => exact (readBy_readWord .maxPageSize (by decide)).not_malformed h.maxPageSize
  | defaultPageSize =>
    exact (readBy_readWord .defaultPageSize (by decide)).not_malformed h.defaultPageSize
  | upsertRetries =>
    exact (readBy_readWord .upsertRetries (by decide)).not_malformed h.upsertRetries
  | logFormat => exact readBy_readLogFormat.not_malformed h.logFormat

/-- The values that are read are those of the configuration that follows the texts. -/
theorem readValues_eq_ok : readValues lookup = .ok c ↔ c.Follows lookup := by
  have url : value? lookup .databaseUrl = c.databaseUrl ↔
      ∀ t, c.databaseUrl = some t ↔ Setting.databaseUrl.Holds lookup t := by
    simp only [← value?_eq_some]
    exact ⟨fun h t => by rw [h], fun h => Option.ext fun t => (h t).symm⟩
  simp only [readValues, Relation.bind_eq_ok, Relation.pure_eq_ok,
    (readBy_readWord .dbMaxConnections (by decide)).valueOr_eq_ok,
    (readBy_readWord .maxPageSize (by decide)).valueOr_eq_ok,
    (readBy_readWord .defaultPageSize (by decide)).valueOr_eq_ok,
    (readBy_readWord .upsertRetries (by decide)).valueOr_eq_ok,
    readBy_readLogFormat.valueOr_eq_ok]
  constructor
  · rintro ⟨connections, hconnections, max_, hmax, default_, hdefault, retries, hretries,
      format, hformat, rfl⟩
    exact ⟨url.1 rfl, hconnections, hmax, hdefault, hretries, hformat⟩
  · rintro ⟨hurl, hconnections, hmax, hdefault, hretries, hformat⟩
    rw [url.2 hurl]
    exact ⟨_, hconnections, _, hmax, _, hdefault, _, hretries, _, hformat, rfl⟩

/-- Reading stops at the first malformed setting, and at nothing else. -/
theorem readValues_eq_error :
    readValues lookup = .error e ↔ Reported lookup readOrder e := by
  rw [readOrder,
    (readBy_readWord .dbMaxConnections (by decide)).reported_cons standard.dbMaxConnections,
    (readBy_readWord .maxPageSize (by decide)).reported_cons standard.maxPageSize,
    (readBy_readWord .defaultPageSize (by decide)).reported_cons standard.defaultPageSize,
    (readBy_readWord .upsertRetries (by decide)).reported_cons standard.upsertRetries,
    readBy_readLogFormat.reported_cons standard.logFormat]
  simp only [readValues, Relation.bind_eq_error, Relation.pure_eq_error, not_reported_nil]

theorem ofLookup_eq_ok : ofLookup lookup = .ok c ↔ c.Follows lookup ∧ c.Consistent := by
  simp only [ofLookup, Relation.bind_eq_ok, Relation.pure_eq_ok, readValues_eq_ok]
  constructor
  · rintro ⟨c, hfollows, ⟨⟩, hvalid, rfl⟩
    exact ⟨hfollows, validate_eq_ok.1 hvalid⟩
  · rintro ⟨hfollows, hconsistent⟩
    exact ⟨c, hfollows, (), validate_eq_ok.2 hconsistent, rfl⟩

theorem ofLookup_eq_error : ofLookup lookup = .error e ↔
    Reported lookup readOrder e ∨
      (∀ x : Setting, ¬ x.Malformed lookup) ∧ ∃ c : GateConfig, c.Follows lookup ∧ c.Clashes e := by
  have hsound : (∃ c : GateConfig, c.Follows lookup ∧ c.Clashes e) → ∀ x : Setting,
      ¬ x.Malformed lookup := fun ⟨_, hfollows, _⟩ => hfollows.not_malformed
  simp only [ofLookup, Relation.bind_eq_error, Relation.pure_eq_error, readValues_eq_error,
    readValues_eq_ok, validate_eq_error, and_false, exists_false, or_false,
    and_iff_right_of_imp hsound]

/-! ## Pages -/

/-- What the service makes of requests for pages under the configuration. -/
structure BoundsPages (c : GateConfig) : Prop where
  /-- To name no size is to ask for the default. -/
  unsized (page : Option UInt32) :
    c.settings.pageRequest page none = ⟨page.getD 0, c.defaultPageSize⟩
  bounded (page : Option UInt32) (size : UInt32) :
    1 ≤ (c.settings.pageRequest page (some size)).size ∧
      (c.settings.pageRequest page (some size)).size ≤ c.maxPageSize
  /-- A size within the bounds is kept. -/
  sized (page : Option UInt32) (size : UInt32) : 1 ≤ size → size ≤ c.maxPageSize →
    c.settings.pageRequest page (some size) = ⟨page.getD 0, size⟩
  /-- A search asks for the page as it was requested. -/
  inputs (page size : Option UInt32) (tenant : TenantBpnl) (filter : InputRelationFilter) :
    Service.findInputs c.settings tenant filter (c.settings.pageRequest page size) =
      .reported (.orFail .ofStore
        (Query.ask (.searchInput tenant filter (c.settings.pageRequest page size))))
  outputs (page size : Option UInt32) (tenant : TenantBpnl) (filter : OutputRelationFilter) :
    Service.findOutputs c.settings tenant filter (c.settings.pageRequest page size) =
      .reported (.orFail .ofStore
        (Query.ask (.searchOutput tenant filter (c.settings.pageRequest page size))))
  sharingStates (page size : Option UInt32) (tenant : TenantBpnl) (filter : SharingStateFilter) :
    Service.findSharingStates c.settings tenant filter (c.settings.pageRequest page size) =
      .reported (.orFail .ofStore
        (Query.ask (.searchSharingStates tenant filter (c.settings.pageRequest page size))))

theorem one_le_size_clamped (r : PageRequest) (limit : UInt32) : 1 ≤ (r.clamped limit).size :=
  UInt32.le_iff_toNat_le.2 (r.size_clamped_pos limit)

theorem Consistent.boundsPages (h : c.Consistent) : c.BoundsPages := by
  have hmax : 1 ≤ c.maxPageSize := UInt32.le_trans h.defaultPageSize_pos h.default_le_max
  have hbounded (page size : Option UInt32) :
      1 ≤ (c.settings.pageRequest page size).size ∧
        (c.settings.pageRequest page size).size ≤ c.maxPageSize :=
    ⟨one_le_size_clamped _ _, PageRequest.size_clamped_le _ hmax⟩
  have hkept (page size : Option UInt32) :
      (c.settings.pageRequest page size).clamped c.settings.maxPageSize =
        c.settings.pageRequest page size :=
    PageRequest.clamped_eq_self (hbounded page size).1 (hbounded page size).2
  refine ⟨?unsized, ?bounded, ?sized, ?inputs, ?outputs, ?sharingStates⟩
  case unsized =>
    exact fun page => PageRequest.clamped_eq_self h.defaultPageSize_pos h.default_le_max
  case bounded => exact fun page size => hbounded page (some size)
  case sized => exact fun page size hsize hlimit => PageRequest.clamped_eq_self hsize hlimit
  case inputs =>
    intro page size tenant filter
    rw [Service.findInputs, hkept]
  case outputs =>
    intro page size tenant filter
    rw [Service.findOutputs, hkept]
  case sharingStates =>
    intro page size tenant filter
    rw [Service.findSharingStates, hkept]

end GateConfig

/-- A look-up is accepted if and only if each number found is a numeral that fits a word and the log
format is named, or blank, and the values fit together; the configuration then has these values.
Otherwise the first malformed setting is reported, and that values do not fit together only if there
is none.  Under an accepted configuration a request without a size has the default one, any other a
size from 1 to the largest, its own if that is one of these; and each search asks for the page that
was requested. -/
theorem lookups_configure_service (lookup : String → Option String) :
    (∀ c, GateConfig.ofLookup lookup = .ok c ↔ c.Follows lookup ∧ c.Consistent) ∧
    (∀ e, GateConfig.ofLookup lookup = .error e ↔
      Setting.Reported lookup Setting.readOrder e ∨
        (∀ x : Setting, ¬ x.Malformed lookup) ∧
          ∃ c : GateConfig, c.Follows lookup ∧ c.Clashes e) ∧
    (∀ c, GateConfig.ofLookup lookup = .ok c → c.BoundsPages) := by
  refine ⟨fun c => GateConfig.ofLookup_eq_ok, fun e => GateConfig.ofLookup_eq_error, fun c hc => ?_⟩
  obtain ⟨-, hconsistent⟩ := GateConfig.ofLookup_eq_ok.1 hc
  exact hconsistent.boundsPages

/-- Blanks of several kinds around a signed number with leading zeros, the largest word and a name
in mixed case; one setting is blank, and two are not there. -/
def looseLookup (name : String) : Option String :=
  [(Setting.dbMaxConnections.key, " +007\t"), (Setting.maxPageSize.key, "\u30004294967295"),
   (Setting.upsertRetries.key, "\u00a0"), (Setting.logFormat.key, "PreTTy\n")].lookup name

/-- The configuration that is read from it. -/
def looseConfig : GateConfig :=
  { GateConfig.standard with
    dbMaxConnections := 7, maxPageSize := 4294967295, logFormat := .pretty }

theorem looseLookup_configures : GateConfig.ofLookup looseLookup = .ok looseConfig ∧
    looseConfig.settings.pageRequest (some 3) none = ⟨3, 50⟩ ∧
    looseConfig.settings.pageRequest none (some 4294967295) = ⟨0, 4294967295⟩ := by
  have haccepted : GateConfig.ofLookup looseLookup = .ok looseConfig := by decide
  obtain ⟨-, -, hpages⟩ := lookups_configure_service looseLookup
  have hbounds := hpages looseConfig haccepted
  exact ⟨haccepted, hbounds.unsized (some 3), hbounds.sized none 4294967295 (by decide) (by decide)⟩

/-- A sign alone is no number, and is reported before the log format. -/
example : GateConfig.ofLookup (fun name =>
      [(Setting.logFormat.key, "xml"), (Setting.upsertRetries.key, "+")].lookup name) =
    .error (.invalidValue .upsertRetries "+" .invalidDigit) := by
  decide

end PartnerRelations
