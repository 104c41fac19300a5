import DependencyLint.Proofs.CheckEffects

/-!
# Lines of a report

A report has one line for each finding, except that blank lines are left out. This happens twice, in
the result of an analysis and in the report on it.

**Theorem (`report_has_every_finding`).** The findings without a line are those of custom checks whose
message is made of white space alone. All other findings have their messages as lines, in order. So a
report with nothing in it means that there were only such findings, and making a report of the lines of
a report changes nothing. Publishing a report to a file that can be written fails exactly if the report
has lines and findings count as failures, and the failure carries the text that was written.

A message that no custom check wrote starts with a word, whatever the names in it are
(`Finding.isBlank_message_iff`).
-/

namespace DependencyLint

/-! ## White space -/

namespace Text

/-- The code points with the property White_Space. -/
def whiteSpace : List Nat :=
  [0x0009, 0x000A, 0x000B, 0x000C, 0x000D, 0x0020, 0x0085, 0x00A0, 0x1680, 0x2000, 0x2001, 0x2002,
    0x2003, 0x2004, 0x2005, 0x2006, 0x2007, 0x2008, 0x2009, 0x200A, 0x2028, 0x2029, 0x202F, 0x205F,
    0x3000]

theorem isSpace_iff (c : Char) : isSpace c = true ↔ c.toNat ∈ whiteSpace := by
  show isSpace c = true ↔ c.val.toNat ∈ whiteSpace
  simp only [isSpace, Bool.or_eq_true, Bool.and_eq_true, decide_eq_true_eq, UInt32.le_iff_toNat_le,
    ← UInt32.toNat_inj, UInt32.reduceToNat, whiteSpace, List.mem_cons, List.not_mem_nil, or_false]
  omega

/-- A text is blank if all its characters are white space. -/
def IsWhite (text : String) : Prop := ∀ c ∈ text.toList, c.toNat ∈ whiteSpace

theorem isBlank_iff {text : String} : isBlank text = true ↔ IsWhite text := by
  simp only [isBlank, IsWhite, List.all_eq_true, isSpace_iff]

theorem isBlank_eq_false {text : String} {c : Char} (hmem : c ∈ text.toList)
    (hc : isSpace c = false) : isBlank text = false := by
  refine Bool.eq_false_iff.2 fun hblank => ?_
  have hspace := List.all_eq_true.1 hblank c hmem
  rw [hc] at hspace
  cases hspace

end Text

/-! ## Findings without a line -/

namespace Finding

/-- The finding of a custom check whose message is made of white space. -/
def IsBlankCheck (finding : Finding) : Prop :=
  ∃ message, finding.kind = .customCheck message ∧ Text.IsWhite message

/-- A message that no custom check wrote starts with a word, so it is not blank. -/
theorem isBlank_message_of_ne {finding : Finding} (h : ∀ text, finding.kind ≠ .customCheck text) :
    Text.isBlank finding.message = false := by
  have hmem : 'M' ∈ finding.message.toList := by
    unfold message
    cases hkind : finding.kind with
    | customCheck text => exact absurd hkind (h text)
    | unusedModule => simp [toString]
    | replaceableModule replacement => simp [toString]
    | unusedLibrary => simp [toString]
  exact Text.isBlank_eq_false hmem (by decide)

/-- **A message is blank only if a custom check wrote it so.** -/
theorem isBlank_message_iff {finding : Finding} :
    Text.isBlank finding.message = true ↔ finding.IsBlankCheck := by
  constructor
  · intro hblank
    cases hkind : finding.kind with
    | customCheck text =>
      rw [message, hkind] at hblank
      exact ⟨text, hkind, Text.isBlank_iff.1 hblank⟩
    | _ =>
      rw [isBlank_message_of_ne (by simp [hkind])] at hblank
      cases hblank
  · rintro ⟨text, hkind, hwhite⟩
    rw [message, hkind]
    exact Text.isBlank_iff.2 hwhite

instance (finding : Finding) : Decidable finding.IsBlankCheck :=
  decidable_of_iff (Text.isBlank finding.message = true) isBlank_message_iff

end Finding

/-! ## Lines -/

namespace Report

variable (result : LintResult) (path : Path)

/-- Blank lines are left out once and for all. -/
theorem ofLines_lines (lines : List String) (modulesChecked : Nat) :
    ofLines (ofLines lines modulesChecked path).lines modulesChecked path =
      ofLines lines modulesChecked path := by
  simp only [ofLines, List.filter_filter, Bool.and_self]

theorem lines_ofResult : (ofResult result path).lines =
    (result.findings.filter fun finding => ¬finding.IsBlankCheck).map Finding.message := by
  have hkept : ∀ finding : Finding,
      (!Text.isBlank finding.message) = decide ¬finding.IsBlankCheck := by
    intro finding
    rw [Bool.eq_iff_iff, Bool.not_eq_true', ← Bool.not_eq_true, Finding.isBlank_message_iff,
      decide_eq_true_eq]
  simp only [ofResult, ofLines, LintResult.lines, LintResult.messages, List.filter_filter,
    Bool.and_self, List.filter_map]
  congr 1
  exact List.filter_congr fun finding _ => hkept finding

theorem isSuccess_iff : (ofResult result path).isSuccess = true ↔
    ∀ finding ∈ result.findings, finding.IsBlankCheck := by
  rw [isSuccess, lines_ofResult, List.isEmpty_iff, List.map_eq_nil_iff, List.filter_eq_nil_iff]
  simp

end Report

/-! ## Publishing -/

namespace FileSystem

/-- A file can be written to the path, with one content or another. -/
def CanWrite (files : FileSystem) (p : Path) : Prop := ∃ content, (files.writeDeep p content).2 = true

/-- The files with the directories above a path, and whether they could all be had. -/
def withAbove (files : FileSystem) (p : Path) : FileSystem × Bool :=
  (p.parent?.map files.makeDirs).getD (files, true)

theorem writeDeep_snd (files : FileSystem) (p : Path) (content : ByteArray) :
    (files.writeDeep p content).2 =
      ((files.withAbove p).2 && ((files.withAbove p).1.filePlace? p).isSome) := by
  unfold writeDeep withAbove
  cases p.parent? with
  | none =>
    cases hplace : files.filePlace? p <;> simp [write?, hplace]
  | some above =>
    cases hready : (files.makeDirs above).2 with
    | false => simp [hready]
    | true =>
      cases hplace : (files.makeDirs above).1.filePlace? p <;> simp [hready, write?, hplace]

/-- Whether a file can be written does not depend on its content. -/
theorem CanWrite.writeDeep {files : FileSystem} {p : Path} (h : files.CanWrite p) (content : ByteArray) :
    (files.writeDeep p content).2 = true := by
  obtain ⟨other, hother⟩ := h
  rwa [writeDeep_snd] at hother ⊢

end FileSystem

/-- What publishing to a file that can be written leaves there, and how it ends. -/
theorem Report.publish_of_canWrite (report : Report) {files : FileSystem}
    (h : files.CanWrite report.path) (fail : Bool) :
    (report.publish fail files).1.stored? report.path = some report.text.toUTF8 ∧
      (report.publish fail files).2 = report.verdict fail := by
  have hwritten := h.writeDeep report.text.toUTF8
  rw [publish_eq, if_pos hwritten]
  exact ⟨FileSystem.stored?_writeDeep hwritten, rfl⟩

theorem Report.verdict_eq_error_iff {report : Report} {fail : Bool} {e : Error} :
    report.verdict fail = .error e ↔
      (fail = true ∧ report.isSuccess = false) ∧ e = .findings report.text := by
  unfold verdict
  cases report.isSuccess <;> cases fail <;> simp [eq_comm]

/-! ## A report with one line -/

namespace OneLine

def finding (dependency : String) (kind : FindingKind) : Finding :=
  ⟨"DS100", "custom-check", "app", dependency, kind⟩

/-- Two custom checks with blank messages, and an unused module with a blank name. -/
def result : LintResult where
  findings := [finding "a" (.customCheck " \t"), finding "\u2003\n" .unusedModule,
    finding "b" (.customCheck "\u0085\u3000")]
  modulesChecked := 2

def path : Path := ⟨"out/report.txt"⟩

theorem canWrite : FileSystem.empty.CanWrite path := ⟨.empty, by decide +kernel⟩

end OneLine

/-! ## The theorem -/

/-- **Only blank messages of custom checks have no line.** The lines of a report are the messages of
all other findings, in order, so that a finding about an unused module or library always has one. The
number of issues, the success of a report and what remains of its lines in another report follow from
this. Where the file of a report can be written, it holds the text of the report in the end, and
publishing fails exactly if findings count as failures and there are some, with the same text. -/
theorem report_has_every_finding (result : LintResult) (path : Path) :
    let report := Report.ofResult result path
    let shown := result.findings.filter fun finding => ¬finding.IsBlankCheck
    report.lines = shown.map Finding.message ∧
    (∀ finding ∈ result.findings, (∀ text, finding.kind ≠ .customCheck text) →
      finding.message ∈ report.lines) ∧
    report.issueCount = shown.length ∧
    (report.isSuccess = true ↔ ∀ finding ∈ result.findings, finding.IsBlankCheck) ∧
    Report.ofLines report.lines report.modulesChecked report.path = report ∧
    ∀ fail files, FileSystem.CanWrite files path →
      ∃ written, (report.publish fail files).1.stored? path = some written.toUTF8 ∧
        ((report.publish fail files).2 = .error (.findings written) ↔
          fail = true ∧ report.isSuccess = false) ∧
        ∀ e, (report.publish fail files).2 = .error e → e = .findings written := by
  intro report shown
  have hlines : report.lines = shown.map Finding.message := Report.lines_ofResult result path
  refine ⟨hlines, fun finding hfinding hkind => ?_, ?_, Report.isSuccess_iff result path,
    Report.ofLines_lines path result.lines result.modulesChecked, fun fail files hcan => ?_⟩
  · rw [hlines]
    refine List.mem_map_of_mem (List.mem_filter.2 ⟨hfinding, decide_eq_true ?_⟩)
    rintro ⟨text, htext, -⟩
    exact hkind text htext
  · rw [Report.issueCount, hlines, List.length_map]
  · obtain ⟨hstored, hverdict⟩ := report.publish_of_canWrite hcan fail
    refine ⟨report.text, hstored, ?_, fun e he => ?_⟩
    · rw [hverdict, Report.verdict_eq_error_iff]
      exact and_iff_left rfl
    · rw [hverdict, Report.verdict_eq_error_iff] at he
      exact he.2

open OneLine in
theorem blank_checks_have_no_line :
    FileSystem.empty.CanWrite path ∧
    (Report.ofResult result path).lines = ["Module app declares unused dependency \u2003\n"] ∧
    (Report.ofResult result path).issueCount = 1 ∧
    ∃ written,
      ((Report.ofResult result path).publish true .empty).1.stored? path = some written.toUTF8 ∧
        ((Report.ofResult result path).publish true .empty).2 = .error (.findings written) := by
  obtain ⟨hlines, -, hcount, -, -, hpublish⟩ := report_has_every_finding result path
  obtain ⟨written, hwritten, hfails, -⟩ := hpublish true .empty canWrite
  refine ⟨canWrite, hlines.trans (by decide), hcount.trans (by decide), written, hwritten,
    hfails.2 ⟨rfl, by decide⟩⟩

end DependencyLint
