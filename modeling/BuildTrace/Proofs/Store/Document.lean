import BuildTrace.Proofs.Configuration.Update
import BuildTrace.Proofs.Json.RoundTrip
import BuildTrace.Store.Document

/-!
# Documents of the results

What is read from a document of a configuration or a snapshot is well-formed. A well-formed
configuration that was written is read back, and so is a snapshot, as far as its launch targets are
read back from their canonical forms.

## Main definitions

* `Standard.IsKnown`: the standards that have a name;
* `Configuration.Sound` and `Snapshot.Sound`: configurations and snapshots that are well-formed.

## Main results

* `Standard.ofString?_name`: known standards are read from their names;
* `Configuration.ofJson?_toJson`: a sound configuration is read back;
* `Snapshot.sound_of_ofJson?`: a snapshot that was read is sound;
* `Snapshot.ofJson?_toJson_iff`: a sound snapshot is read back exactly if its launch targets are
  read back from their canonical forms;
* `Snapshot.plain_toJson`: a snapshot can be written.
-/

namespace BuildTrace

/-! ## Lists -/

/-- All elements of a list are read back exactly if each of them is. -/
theorem mapM_map_eq_some_iff {α β : Type} {write : α → β} {read : β → Option α} {values : List α} :
    (values.map write).mapM read = some values ↔
      ∀ value ∈ values, read (write value) = some value := by
  induction values with
  | nil => simp
  | cons value values ih =>
    rw [List.map_cons, List.mapM_cons, List.forall_mem_cons, ← ih]
    cases read (write value) with
    | none => simp
    | some value' =>
      cases (values.map write).mapM read with
      | none => simp
      | some values' => simp

/-- What holds of all that is read from an element holds of all that is read from a list. -/
theorem forall_mem_of_mapM {α β : Type} {P : α → Prop} {read : β → Option α} {items : List β}
    {values : List α} (hread : ∀ item value, read item = some value → P value)
    (h : items.mapM read = some values) : ∀ value ∈ values, P value := by
  induction items generalizing values with
  | nil =>
    cases h
    exact nofun
  | cons item items ih =>
    rw [List.mapM_cons] at h
    obtain ⟨value, hvalue, h⟩ := Option.bind_eq_some_iff.mp h
    obtain ⟨rest, hrest, h⟩ := Option.bind_eq_some_iff.mp h
    cases h
    exact List.forall_mem_cons.mpr ⟨hread item value hvalue, ih hrest⟩

/-! ## Standards and modes -/

namespace Standard

/-- The standard is one of those that exist. -/
def IsKnown (s : Standard) : Prop :=
  match s.language with
  | .cpp => s.version ∈ cppVersions.map Prod.snd
  | .c => s.version ∈ cVersions.map Prod.snd

/-- The known standards of a language and a dialect. -/
def known (language : Language) (gnu : Bool) : List Standard :=
  let versions := match language with | .cpp => cppVersions | .c => cVersions
  versions.map fun version => ⟨language, version.2, gnu⟩

/-- Known standards are read from their names. -/
theorem ofString?_name {s : Standard} (h : s.IsKnown) : ofString? s.name = some s := by
  -- There are few known standards, so each name can be read.
  have hall : ∀ language ∈ [Language.c, .cpp], ∀ gnu ∈ [false, true],
      ∀ s ∈ known language gnu, ofString? s.name = some s := by decide +kernel
  obtain ⟨language, version, gnu⟩ := s
  refine hall language (by cases language <;> simp) gnu (by cases gnu <;> simp) _ ?_
  cases language with
  | c =>
    obtain ⟨pair, hpair, rfl⟩ := List.mem_map.mp h
    exact List.mem_map.mpr ⟨pair, hpair, rfl⟩
  | cpp =>
    obtain ⟨pair, hpair, rfl⟩ := List.mem_map.mp h
    exact List.mem_map.mpr ⟨pair, hpair, rfl⟩

theorem mem_of_lookup {versions : List (String × UInt8)} {key : String} {version : UInt8}
    (h : versions.lookup key = some version) : version ∈ versions.map Prod.snd := by
  induction versions with
  | nil => cases h
  | cons pair versions ih =>
    rw [List.lookup_cons] at h
    split at h
    · cases h
      exact List.mem_cons_self
    · exact List.mem_cons_of_mem _ (ih h)

/-- A token means a known standard. -/
theorem isKnown_of_ofToken? {token : List Char} {s : Standard} (h : ofToken? token = some s) :
    s.IsKnown := by
  rw [ofToken?] at h
  split at h
  · cases h
  · split at h
    · obtain ⟨version, hversion, rfl⟩ := Option.map_eq_some_iff.mp h
      exact mem_of_lookup hversion
    · obtain ⟨version, hversion, rfl⟩ := Option.map_eq_some_iff.mp h
      exact mem_of_lookup hversion

theorem isKnown_of_parse? {token : String} {language : Option Language} {allowGnu : Bool}
    {s : Standard} (h : parse? token language allowGnu = some s) : s.IsKnown := by
  rw [parse?] at h
  split at h
  · cases h
  next standard hstandard =>
    have hknown : standard.IsKnown := isKnown_of_ofToken? hstandard
    split at h
    · cases h
      exact hknown
    · cases h

/-- The standard of the files of a language is known. -/
theorem isKnown_resolve (token : Option String) (language : Language) (allowGnu : Bool) :
    (resolve token language allowGnu).IsKnown := by
  rw [resolve]
  cases h : token.bind fun token => parse? token (some language) allowGnu with
  | none =>
    have hdefault : (17 : UInt8) ∈ cVersions.map Prod.snd ∧
        (17 : UInt8) ∈ cppVersions.map Prod.snd := by decide
    cases language with
    | c => exact hdefault.1
    | cpp => exact hdefault.2
  | some standard =>
    obtain ⟨token, _, hparse⟩ := Option.bind_eq_some_iff.mp h
    exact isKnown_of_parse? hparse

end Standard

/-- Modes are read from their names. -/
theorem Toolchain.Mode.ofName?_name (mode : Toolchain.Mode) : ofName? mode.name = some mode := by
  obtain ⟨family, architecture⟩ := mode
  cases family <;> cases architecture <;> decide +kernel

/-! ## Parts of documents -/

namespace Json

theorem texts?_texts (values : List String) : (texts values).texts? = some values :=
  mapM_map_eq_some_iff.mpr fun _ _ => rfl

theorem paths?_ofPaths (paths : List Path) : (ofPaths paths).paths? = some paths :=
  mapM_map_eq_some_iff.mpr fun _ _ => rfl

theorem plain_texts (values : List String) : (texts values).Plain := by
  refine plainItems_iff.mpr fun item hitem => ?_
  obtain ⟨value, _, rfl⟩ := List.mem_map.mp hitem
  trivial

theorem plain_ofPaths (paths : List Path) : (ofPaths paths).Plain := by
  refine plainItems_iff.mpr fun item hitem => ?_
  obtain ⟨p, _, rfl⟩ := List.mem_map.mp hitem
  trivial

end Json

/-! ## Configurations of files -/

namespace FileConfiguration

/-- The standard of the configuration, if there is one, is known. -/
def Sound (c : FileConfiguration) : Prop :=
  ∀ standard, c.standard = some standard → standard.IsKnown

theorem slots?_toJson (c : FileConfiguration) :
    Json.format.slots? keys c.toJson = some
      [.given (.texts c.defines), .given (.ofPaths c.includePaths),
        .given (.ofPaths c.forcedIncludes), .given (.ofText? (c.standard.map Standard.name)),
        .given (.ofPath c.compiler), .given (.text c.mode.name),
        c.sdkVersion.elim .absent fun version => .given (.text version)] := by
  rcases c with ⟨_, _, _, _, _, _, _ | _⟩ <;> rfl

/-- A configuration is read back from its document. -/
theorem ofJson?_toJson {c : FileConfiguration} (h : c.Sound) : ofJson? c.toJson = some c := by
  have hstandard : (Document.Slot.given (Json.ofText? (c.standard.map Standard.name))).optional
      Json.format Standard.ofJson? = some c.standard := by
    cases hc : c.standard with
    | none => rfl
    | some standard =>
      have hname : Standard.ofJson? (.text standard.name) = some standard :=
        Standard.ofString?_name (h standard hc)
      simp [Document.Slot.optional, Json.ofText?, Json.format, Json.isNull, hname]
  have hmode : Toolchain.Mode.ofJson? (.text c.mode.name) = some c.mode :=
    c.mode.ofName?_name
  have hsdk : (c.sdkVersion.elim .absent fun version => .given (.text version) :
      Document.Slot Json).withDefault none (Json.optional? Json.text?) = some c.sdkVersion := by
    cases c.sdkVersion <;> rfl
  have hcompiler : (Json.ofPath c.compiler).path? = some c.compiler := rfl
  simp only [ofJson?, slots?_toJson, Option.bind_eq_bind, Option.bind_some, Document.Slot.required,
    Json.texts?_texts, Json.paths?_ofPaths, hstandard, hmode, hsdk, hcompiler]

/-- The standard of a configuration that was read is known. -/
theorem sound_of_ofJson? {value : Json} {c : FileConfiguration} (h : ofJson? value = some c) :
    c.Sound := by
  simp only [ofJson?, Option.bind_eq_bind, Option.bind_eq_some_iff] at h
  obtain ⟨slots, _, h⟩ := h
  split at h
  · simp only [Option.bind_eq_some_iff, Option.some.injEq] at h
    obtain ⟨_, _, _, _, _, _, standard, hstandard, _, _, _, _, _, _, rfl⟩ := h
    -- The standard was null or read from a name.
    rintro known rfl
    rw [Document.Slot.optional.eq_def] at hstandard
    split at hstandard
    · split at hstandard
      · cases hstandard
      · obtain ⟨standard, hread, hknown⟩ := Option.map_eq_some_iff.mp hstandard
        cases hknown
        obtain ⟨text, _, hparse⟩ := Option.bind_eq_some_iff.mp hread
        exact Standard.isKnown_of_parse? hparse
    · cases hstandard
    · cases hstandard
  · cases h

theorem plain_toJson (c : FileConfiguration) : c.toJson.Plain := by
  have hstandard : (Json.ofText? (c.standard.map Standard.name)).Plain := by
    cases c.standard <;> trivial
  rcases c with ⟨defines, includePaths, forcedIncludes, standard, compiler, mode, _ | version⟩
  · exact ⟨Json.plain_texts _, Json.plain_ofPaths _, Json.plain_ofPaths _, hstandard, trivial,
      trivial, trivial⟩
  · exact ⟨Json.plain_texts _, Json.plain_ofPaths _, Json.plain_ofPaths _, hstandard, trivial,
      trivial, trivial, trivial⟩

end FileConfiguration

/-! ## Configurations -/

namespace Configuration

/-- The configuration is well-formed: it is normal, and the standards are known. -/
structure Sound (c : Configuration) : Prop where
  /-- The configuration is normal. -/
  normal : c.Normal
  /-- The standards in the configurations of the files are known. -/
  files : ∀ pair ∈ c.files, pair.2.Sound

theorem sound_empty : empty.Sound := ⟨normal_empty, nofun⟩

/-- What is made of files with known standards is well-formed. -/
theorem sound_ofParts {files : List (Path × FileConfiguration)}
    (h : ∀ pair ∈ files, pair.2.Sound) (browse : List Path) : (ofParts files browse).Sound :=
  ⟨normal_ofParts files browse, FileIndex.forall_mem_insertAll nofun h⟩

/-- A well-formed configuration stays so when it is brought up to date. -/
theorem Sound.update {c found : Configuration} (h : c.Sound)
    (hfound : ∀ pair ∈ found.files, pair.2.Sound) (mode : UpdateMode) :
    (c.update found mode).Sound where
  normal := normal_update h.normal found mode
  files := by
    cases mode with
    | replace => exact FileIndex.forall_mem_insertAll nofun hfound
    | merge => exact FileIndex.forall_mem_insertAll h.files hfound

/-- The standards in the configuration of units are those of the units. -/
theorem sound_ofUnits {units : List CompileUnit}
    (h : ∀ u ∈ units, u.configuration.Sound) : ∀ pair ∈ (ofUnits units).files, pair.2.Sound := by
  -- The induction is on the units, from any configuration with known standards.
  have hfrom : ∀ c : Configuration, (∀ pair ∈ c.files, pair.2.Sound) →
      ∀ pair ∈ (units.foldl apply c).files, pair.2.Sound := by
    induction units with
    | nil => exact fun _ hc => hc
    | cons u units ih =>
      intro c hc
      obtain ⟨hu, hunits⟩ := List.forall_mem_cons.mp h
      refine ih hunits _ (FileIndex.forall_mem_insertAll hc fun pair hpair => ?_)
      obtain ⟨source, _, rfl⟩ := List.mem_map.mp hpair
      exact hu
  exact hfrom empty nofun

/-- A well-formed configuration is read back from its document. -/
theorem ofJson?_toJson {c : Configuration} (h : c.Sound) : ofJson? c.toJson = some c := by
  have hslots : Json.format.slots? ["files", "browsePath"] c.toJson = some
      [.given (.object (c.files.map fun pair => (pair.1.text, pair.2.toJson))),
        .given (.ofPaths c.browse)] := rfl
  have hfiles : (c.files.map fun pair => (pair.1.text, pair.2.toJson)).mapM
      FileConfiguration.ofMember? = some c.files := by
    refine mapM_map_eq_some_iff.mpr fun pair hpair => ?_
    rw [FileConfiguration.ofMember?, FileConfiguration.ofJson?_toJson (h.files pair hpair)]
    rfl
  have hself : ofParts c.files c.browse = c := by
    have hparts := ofParts_eq_self h.normal
    rwa [FileIndex.lastOfEach_of_sorted h.normal.files] at hparts
  simp only [ofJson?, hslots, Option.bind_eq_bind, Option.bind_some, Document.Slot.withDefault,
    Json.members?, hfiles, Json.paths?_ofPaths, hself]

/-- A configuration that was read is well-formed. -/
theorem sound_of_ofJson? {value : Json} {c : Configuration} (h : ofJson? value = some c) :
    c.Sound := by
  simp only [ofJson?, Option.bind_eq_bind, Option.bind_eq_some_iff] at h
  obtain ⟨slots, _, h⟩ := h
  split at h
  next filesSlot browseSlot =>
    simp only [Option.bind_eq_some_iff, Option.some.injEq] at h
    obtain ⟨files, hfiles, browse, _, rfl⟩ := h
    refine sound_ofParts ?_ browse
    -- Each member was read, or there was no object of files.
    rw [Document.Slot.withDefault.eq_def] at hfiles
    split at hfiles
    · obtain ⟨members, _, hmembers⟩ := Option.bind_eq_some_iff.mp hfiles
      refine forall_mem_of_mapM (fun member pair hread => ?_) hmembers
      obtain ⟨configuration, hconfiguration, rfl⟩ := Option.map_eq_some_iff.mp hread
      exact FileConfiguration.sound_of_ofJson? hconfiguration
    · cases hfiles
      exact nofun
  · cases h

theorem plain_toJson (c : Configuration) : c.toJson.Plain := by
  refine ⟨Json.plainMembers_iff.mpr fun member hmember => ?_, Json.plain_ofPaths _, trivial⟩
  obtain ⟨pair, _, rfl⟩ := List.mem_map.mp hmember
  exact pair.2.plain_toJson

end Configuration

/-! ## Snapshots -/

namespace Snapshot

/-- The snapshot is well-formed: its configuration is normal, and the standards are known. -/
structure Sound (s : Snapshot) : Prop where
  /-- The configuration is normal. -/
  normal : s.configuration.Normal
  /-- The standards in the configurations of the files are known. -/
  files : ∀ pair ∈ s.configuration.files, pair.2.Sound

theorem sound_empty : Sound {} := ⟨Configuration.normal_empty, nofun⟩

/-- What a list of pairs of paths and configurations is read as is well-formed. -/
theorem sound_of_ofPair? {value : Json} {pair : Path × FileConfiguration}
    (h : FileConfiguration.ofPair? value = some pair) : pair.2.Sound := by
  rw [FileConfiguration.ofPair?.eq_def] at h
  split at h
  · simp only [Option.bind_eq_bind, Option.bind_eq_some_iff, Option.some.injEq] at h
    obtain ⟨_, _, configuration, hconfiguration, rfl⟩ := h
    exact FileConfiguration.sound_of_ofJson? hconfiguration
  · cases h

/-- A snapshot that was read is well-formed. -/
theorem sound_of_ofJson? {value : Json} {s : Snapshot} (h : ofJson? value = some s) : s.Sound := by
  simp only [ofJson?, Option.bind_eq_bind, Option.bind_eq_some_iff] at h
  obtain ⟨slots, _, h⟩ := h
  split at h
  next buildTargets launchTargets filesSlot browseSlot =>
    simp only [Option.bind_eq_some_iff, Option.some.injEq] at h
    obtain ⟨files, hfiles, browse, _, _, _, _, _, rfl⟩ := h
    -- Each pair was read, or there was no list of files.
    have hsound : ∀ pair ∈ files, pair.2.Sound := by
      rw [Document.Slot.withDefault.eq_def] at hfiles
      split at hfiles
      · obtain ⟨items, _, hitems⟩ := Option.bind_eq_some_iff.mp hfiles
        exact forall_mem_of_mapM (fun _ _ => sound_of_ofPair?) hitems
      · cases hfiles
        exact nofun
    have hparts := Configuration.sound_ofParts (fun pair hpair =>
      hsound pair (FileIndex.mem_of_mem_lastOfEach hpair)) browse
    exact ⟨hparts.normal, hparts.files⟩
  · cases h

theorem slots?_toJson (s : Snapshot) :
    Json.format.slots? keys s.toJson = some
      [.given (.texts s.buildTargets), .given (.texts (s.launchTargets.map LaunchTarget.canonical)),
        .given (.array (s.configuration.files.map fun pair =>
          .array [.ofPath pair.1, pair.2.toJson])),
        .given (.ofPaths s.configuration.browse)] := rfl

theorem Sound.list?_files {s : Snapshot} (h : s.Sound) :
    Json.format.list? FileConfiguration.ofPair?
      (.array (s.configuration.files.map fun pair => .array [.ofPath pair.1, pair.2.toJson]))
        = some s.configuration.files := by
  refine mapM_map_eq_some_iff.mpr fun pair hpair => ?_
  have hread := FileConfiguration.ofJson?_toJson (h.files pair hpair)
  simp [FileConfiguration.ofPair?, Json.path?, Json.ofPath, Json.text?, hread]

/-- The configuration in the document of a snapshot, whatever the targets are. -/
def configuration? (value : Json) : Option Configuration := do
  match ← Json.format.slots? keys value with
  | [_, _, files, browse] =>
    let files ← files.withDefault [] (Json.format.list? FileConfiguration.ofPair?)
    let browse ← browse.withDefault [] Json.paths?
    some (.ofParts (FileIndex.lastOfEach files) browse)
  | _ => none

/-- The configuration of a well-formed snapshot is read back from its document. -/
theorem configuration?_toJson {s : Snapshot} (h : s.Sound) :
    configuration? s.toJson = some s.configuration := by
  simp only [configuration?, slots?_toJson, Option.bind_eq_bind, Option.bind_some,
    Document.Slot.withDefault, h.list?_files, Json.paths?_ofPaths,
    Configuration.ofParts_eq_self h.normal]

/-- A well-formed snapshot is read back from its document, with the launch targets that are read
back from their canonical forms. -/
theorem ofJson?_toJson {s : Snapshot} (h : s.Sound) :
    ofJson? s.toJson =
      (((s.launchTargets.map LaunchTarget.canonical).map Json.text).mapM LaunchTarget.ofJson?).map
        fun launchTargets => { s with launchTargets } := by
  have hlaunchTargets : Json.format.list? LaunchTarget.ofJson?
      (.texts (s.launchTargets.map LaunchTarget.canonical))
        = ((s.launchTargets.map LaunchTarget.canonical).map Json.text).mapM
            LaunchTarget.ofJson? := rfl
  simp only [ofJson?, slots?_toJson, Option.bind_eq_bind, Option.bind_some,
    Document.Slot.withDefault, h.list?_files, hlaunchTargets, Json.texts?_texts,
    Json.paths?_ofPaths, Configuration.ofParts_eq_self h.normal]
  cases ((s.launchTargets.map LaunchTarget.canonical).map Json.text).mapM LaunchTarget.ofJson? <;>
    rfl

/-- A well-formed snapshot is read back from its document exactly if each of its launch targets is
read back from its canonical form. -/
theorem ofJson?_toJson_iff {s : Snapshot} (h : s.Sound) :
    ofJson? s.toJson = some s ↔ ∀ t ∈ s.launchTargets, LaunchTarget.parse t.canonical = .ok t := by
  have hread : ∀ t, LaunchTarget.ofJson? (.text (LaunchTarget.canonical t)) = some t ↔
      LaunchTarget.parse t.canonical = .ok t := by
    intro t
    have hparse : LaunchTarget.ofJson? (.text t.canonical)
        = (LaunchTarget.parse t.canonical).toOption := rfl
    rw [hparse]
    cases LaunchTarget.parse t.canonical <;> simp [Except.toOption]
  have hall : ((s.launchTargets.map LaunchTarget.canonical).map Json.text).mapM
      LaunchTarget.ofJson? = some s.launchTargets ↔
        ∀ t ∈ s.launchTargets, LaunchTarget.parse t.canonical = .ok t := by
    simp only [List.map_map, mapM_map_eq_some_iff, Function.comp_apply, hread]
  rw [← hall, ofJson?_toJson h, Option.map_eq_some_iff]
  constructor
  · rintro ⟨launchTargets, hlaunchTargets, heq⟩
    rw [hlaunchTargets, ← heq]
  · exact fun hlaunchTargets => ⟨s.launchTargets, hlaunchTargets, rfl⟩

theorem plain_toJson (s : Snapshot) : s.toJson.Plain := by
  refine ⟨Json.plain_texts _, Json.plain_texts _, Json.plainItems_iff.mpr fun item hitem => ?_,
    Json.plain_ofPaths _, trivial⟩
  obtain ⟨pair, _, rfl⟩ := List.mem_map.mp hitem
  exact ⟨trivial, pair.2.plain_toJson, trivial⟩

end Snapshot

end BuildTrace
