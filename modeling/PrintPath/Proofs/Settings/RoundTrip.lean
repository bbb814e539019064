import Mathlib
import PrintPath.Proofs.Files.Tree
import PrintPath.Proofs.Json.RoundTrip
import PrintPath.Proofs.Toml.RoundTrip
import PrintPath.Settings.File

/-!
# Saved settings are loaded back

Settings survive a file of either format, with every character of their level, as long as
the codec of the format reads back what it writes. The codecs of the program do. What is
not valid is neither saved nor loaded, and files are touched only after the level and the
format of the file were found good.
-/

namespace PrintPath.Settings

open Files (FileError ReadsBack Reader Tree Writer)

/-! ## Codecs -/

/-- All settings can be written, and they are read back as they were. -/
def Codec.Lawful (c : Codec) : Prop :=
  ∀ s, ∃ text, c.render s = .ok text ∧ c.parse text = .ok s

/-- Settings are what their sections say. -/
theorem ofDocument?_toSections (c : Document.Convention) (s : Settings) :
    ofDocument? c s.toSections.toDocument = some s := by
  obtain ⟨⟨strictness, policy⟩, ⟨travel, degenerate⟩, ⟨level, json⟩⟩ := s
  cases strictness <;> cases policy <;> rfl

/-- The sections of settings have fixed names, all of them bare. -/
theorem isTidy_toSections (s : Settings) : Toml.IsTidy s.toSections := by
  constructor
  case names => simp [toSections]
  case innerNames => simp [toSections]
  case bare =>
    simp only [toSections, List.forall_mem_cons]
    decide
  case innerBare =>
    simp only [toSections, List.forall_mem_cons]
    decide

theorem lawful_jsonCodec : jsonCodec.Lawful := by
  intro s
  refine ⟨_, rfl, ?_⟩
  unfold jsonCodec
  dsimp only
  rw [Json.read_write, Option.bind_some, ofDocument?_toSections]

theorem lawful_tomlCodec : tomlCodec.Lawful := by
  intro s
  refine ⟨_, rfl, ?_⟩
  unfold tomlCodec
  dsimp only
  rw [Toml.read_write (isTidy_toSections s), Option.bind_some, ofDocument?_toSections]

/-- What the program writes in a format it reads back. -/
theorem lawful_codec : ∀ format : Format, format.codec.Lawful
  | .json => lawful_jsonCodec
  | .toml => lawful_tomlCodec

/-! ## Formats -/

/-- A file that settings can be kept in: its extension is that of a format, in any case. -/
def HasFormat (path : String) : Prop :=
  ∃ extension, Files.extension? path = some extension ∧
    (extension.toLower = "json" ∨ extension.toLower = "toml")

/-- Upper case and lower case tell the same letters apart. -/
theorem sameLetters_iff {s t : String} :
    Severity.sameLetters s.toList t.toList = true ↔ s.toLower = t.toLower := by
  have upperOfLower (r : String) :
      r.toList.map Char.toUpper = r.toLower.toList.map Char.toUpper := by
    rw [String.toLower, String.toList_map, List.map_map]
    exact List.map_congr_left fun c _ => (Char.toUpper_toLower_eq_toUpper c).symm
  have lowerOfUpper (r : String) :
      r.toLower.toList = (r.toList.map Char.toUpper).map Char.toLower := by
    rw [String.toLower, String.toList_map, List.map_map]
    exact List.map_congr_left fun c _ => (Char.toLower_toUpper_eq_toLower c).symm
  unfold Severity.sameLetters
  rw [beq_iff_eq]
  constructor
  · intro same
    rw [← String.toList_inj, lowerOfUpper, lowerOfUpper, same]
  · intro same
    rw [upperOfLower, upperOfLower t, same]

theorem Format.toLower_name (f : Format) : f.name.toLower = f.name := by
  rw [← String.toList_inj, String.toLower, String.toList_map]
  cases f <;> decide

/-- The format of a file is the one whose name is its extension, in any case. -/
theorem ofPath_eq_ok_iff {path : String} {format : Format} :
    Format.ofPath path = .ok format ↔
      ∃ extension, Files.extension? path = some extension ∧ extension.toLower = format.name := by
  unfold Format.ofPath
  cases given : Files.extension? path with
  | none => simp
  | some extension =>
      have same (f : Format) : Severity.sameLetters extension.toList f.name.toList =
          decide (extension.toLower = f.name) := by
        rw [Bool.eq_iff_iff, sameLetters_iff, Format.toLower_name, decide_eq_true_iff]
      simp only [same, Option.some.injEq, exists_eq_left']
      by_cases json : extension.toLower = "json"
      · cases format <;> simp [json, Format.name]
      · by_cases toml : extension.toLower = "toml"
        · cases format <;> simp [toml, Format.name]
        · cases format <;> simp [json, toml, Format.name]

theorem hasFormat_iff {path : String} :
    HasFormat path ↔ ∃ format, Format.ofPath path = .ok format := by
  simp only [ofPath_eq_ok_iff]
  constructor
  · rintro ⟨extension, given, json | toml⟩
    · exact ⟨.json, extension, given, json⟩
    · exact ⟨.toml, extension, given, toml⟩
  · rintro ⟨format, extension, given, name⟩
    refine ⟨extension, given, ?_⟩
    cases format with
    | json => exact Or.inl name
    | toml => exact Or.inr name

theorem ofPath_of_not_hasFormat {path : String} (h : ¬ HasFormat path) :
    Format.ofPath path = .error (.unsupportedFormat (Files.extension? path)) := by
  rw [hasFormat_iff] at h
  unfold Format.ofPath at h ⊢
  cases given : Files.extension? path with
  | none => rfl
  | some extension =>
      rw [given] at h
      dsimp only at h ⊢
      split
      · next found =>
          rw [found] at h
          exact absurd ⟨_, rfl⟩ h
      · rfl

/-! ## Validity -/

/-- The level names a severity. -/
def IsValid (s : Settings) : Prop :=
  ∃ severity, s.severity = .ok severity

theorem validate_eq_ok_iff {s : Settings} : s.validate = .ok () ↔ s.IsValid := by
  unfold validate IsValid
  cases s.severity with
  | error problem => exact ⟨nofun, nofun⟩
  | ok severity => exact ⟨fun _ => ⟨severity, rfl⟩, fun _ => rfl⟩

theorem validate_of_not_isValid {s : Settings} (h : ¬ s.IsValid) :
    s.validate = .error (.unknownLevel s.log.level) := by
  unfold IsValid severity at h
  unfold validate severity
  cases given : s.log.severity? with
  | none => rfl
  | some severity =>
      rw [given] at h
      exact absurd ⟨severity, rfl⟩ h

section Files

variable {codecs : Format → Codec}

/-! ## Loading -/

theorem isValid_of_load {read : Reader} {path : String} {s : Settings}
    (h : load read path codecs = .ok s) : s.IsValid := by
  unfold load at h
  obtain ⟨format, chosen, h⟩ := exists_ok_of_bind h
  obtain ⟨text, held, h⟩ := exists_ok_of_bind h
  obtain ⟨s', parsed, h⟩ := exists_ok_of_bind h
  obtain ⟨_, valid, h⟩ := exists_ok_of_bind h
  cases h
  exact validate_eq_ok_iff.mp valid

theorem readText_of_toUTF8 {read : Reader} {path text : String}
    (held : read path = .ok text.toUTF8) : readText read path = .ok text := by
  have decoded : String.fromUTF8? text.toUTF8 = some text := dif_pos text.isValidUTF8
  unfold readText
  rw [held]
  dsimp only
  rw [decoded]

/-- A file with a text of valid settings holds these settings. -/
theorem load_of_parse {read : Reader} {path text : String} {s : Settings} {format : Format}
    (chosen : Format.ofPath path = .ok format) (held : read path = .ok text.toUTF8)
    (parsed : (codecs format).parse text = .ok s) (valid : s.IsValid) :
    load read path codecs = .ok s := by
  unfold load parse
  rw [chosen, readText_of_toUTF8 held]
  dsimp only [bind, Except.bind]
  rw [parsed]
  dsimp only
  rw [validate_eq_ok_iff.mpr valid]
  rfl

/-! ## Saving -/

section Saving

variable {σ : Type} {write : Writer σ} {s : Settings} {path : String} {files : σ}

/-- What is not valid is not saved, wherever it is to go. -/
theorem save_of_not_isValid (h : ¬ s.IsValid) :
    s.save write path files codecs = (.error (.unknownLevel s.log.level), files) := by
  unfold save savingText
  rw [validate_of_not_isValid h]
  rfl

theorem save_of_not_hasFormat (valid : s.IsValid) (h : ¬ HasFormat path) :
    s.save write path files codecs =
      (.error (.unsupportedFormat (Files.extension? path)), files) := by
  unfold save savingText
  rw [validate_eq_ok_iff.mpr valid, ofPath_of_not_hasFormat h]
  rfl

/-- Valid settings are written as their text in the format of the file. -/
theorem save_of_render {format : Format} {text : String} (valid : s.IsValid)
    (chosen : Format.ofPath path = .ok format) (rendered : (codecs format).render s = .ok text) :
    s.save write path files codecs =
      ((write path text.toUTF8 files).1.mapError (.unwritable path),
        (write path text.toUTF8 files).2) := by
  unfold save savingText
  rw [validate_eq_ok_iff.mpr valid, chosen]
  dsimp only [bind, Except.bind]
  rw [rendered]

/-- Saved settings are valid, and the file is of a known format. -/
theorem exists_format_of_save {files' : σ}
    (h : s.save write path files codecs = (.ok (), files')) :
    s.IsValid ∧ ∃ format, Format.ofPath path = .ok format := by
  have valid : s.IsValid := by
    by_contra invalid
    rw [save_of_not_isValid invalid] at h
    cases h
  have known : HasFormat path := by
    by_contra unknown
    rw [save_of_not_hasFormat valid unknown] at h
    cases h
  exact ⟨valid, hasFormat_iff.mp known⟩

/-- The file of saved settings has their text. -/
theorem write_of_save {files' : σ} {format : Format} {text : String}
    (h : s.save write path files codecs = (.ok (), files')) (valid : s.IsValid)
    (chosen : Format.ofPath path = .ok format) (rendered : (codecs format).render s = .ok text) :
    write path text.toUTF8 files = (.ok (), files') := by
  rw [save_of_render valid chosen rendered] at h
  generalize write path text.toUTF8 files = written at h
  obtain ⟨result, after⟩ := written
  cases result with
  | error e => cases h
  | ok _ =>
      cases h
      rfl

end Saving

end Files

/-- **Settings survive their file.** Let what is written to a file be read back, and let the
codecs read back what they write, as those of the program do. Then saved settings are
loaded as they were. They are saved only if they are valid and the file has a format, and
then by one write; otherwise no file changes. What is loaded is valid. -/
theorem load_save {σ : Type} {read : σ → Reader} {write : Writer σ}
    (readsBack : ReadsBack read write) :
    (∀ format : Format, format.codec.Lawful) ∧
    ∀ codecs : Format → Codec, (∀ format, (codecs format).Lawful) →
    ∀ (s : Settings) (path : String) (files : σ),
      (∀ files', s.save write path files codecs = (.ok (), files') →
        s.IsValid ∧ HasFormat path ∧ load (read files') path codecs = .ok s) ∧
      (s.IsValid → HasFormat path → ∃ bytes,
        s.save write path files codecs = ((write path bytes files).1.mapError (.unwritable path),
          (write path bytes files).2)) ∧
      (¬ s.IsValid →
        s.save write path files codecs = (.error (.unknownLevel s.log.level), files)) ∧
      (s.IsValid → ¬ HasFormat path → s.save write path files codecs =
        (.error (.unsupportedFormat (Files.extension? path)), files)) ∧
      (∀ (reader : Reader) (s' : Settings), load reader path codecs = .ok s' →
        s'.validate = .ok () ∧ ∃ severity, s'.severity = .ok severity) := by
  refine ⟨lawful_codec, fun codecs lawful s path files => ?_⟩
  refine ⟨fun files' saved => ?_, fun valid known => ?_, save_of_not_isValid,
    save_of_not_hasFormat, fun reader s' loaded => ?_⟩
  · obtain ⟨valid, format, chosen⟩ := exists_format_of_save saved
    obtain ⟨text, rendered, parsed⟩ := lawful format s
    have held := readsBack path _ files files' (write_of_save saved valid chosen rendered)
    exact ⟨valid, hasFormat_iff.mpr ⟨format, chosen⟩, load_of_parse chosen held parsed valid⟩
  · obtain ⟨format, chosen⟩ := hasFormat_iff.mp known
    obtain ⟨text, rendered, -⟩ := lawful format s
    exact ⟨_, save_of_render valid chosen rendered⟩
  · have valid := isValid_of_load loaded
    exact ⟨validate_eq_ok_iff.mpr valid, valid⟩

/-- Settings with white space around the number that is their level. -/
def padded : Settings :=
  { log := { level := "\n\t+0003 \r\n" } }

/-- Such settings are saved and loaded back with the white space by the codecs of the
program. -/
theorem load_save_padded : ReadsBack Tree.read Tree.writer ∧
    ∃ files, padded.save Tree.writer "print.TOML" {} = (.ok (), files) ∧
      load files.read "print.TOML" = .ok padded := by
  have saved : (padded.save Tree.writer "print.TOML" {}).1 = .ok () := by
    decide
  obtain ⟨lawful, survive⟩ := load_save Tree.readsBack
  refine ⟨Tree.readsBack, _, Prod.ext saved rfl, ?_⟩
  exact ((survive Format.codec lawful padded "print.TOML" {}).1 _ (Prod.ext saved rfl)).2.2

end PrintPath.Settings
