import Mathlib
import AnnotatedHelp.CommandLine.Run
import AnnotatedHelp.Proofs.CountNotation
import AnnotatedHelp.Proofs.Fields
import AnnotatedHelp.Proofs.Locations
import AnnotatedHelp.Proofs.Outcome

/-!
# Checking and parsing

Checking several inputs reads each of them as parsing it alone does, unless it is named by a dash:
parsing takes the standard input then, and checking looks for a file of that name. What is checked is
told by what is read for each input, and the end of the report gives away how many were refused.
Reports about a file begin with its name and reports about the standard input do not, so the two
readings of a dash can agree only by accepting it.
-/

namespace AnnotatedHelp

open Outcome Text

namespace Document

variable {settings : Settings} {marks : Marks} {text : String} {diagnostic : Diagnostic}

/-- A fault of a text names no file. -/
theorem Fault.file (h : Fault settings marks text diagnostic) : diagnostic.file = none := by
  cases h with
  | unclosed => rfl
  | refused => rfl
  | misplaced _ _ hoffence =>
    obtain ⟨before, draft, after, -, -, hoffence⟩ := hoffence
    cases hoffence <;> rfl
  | undeduced _ _ _ hfault => cases hfault <;> rfl

/-- A text that is refused is refused without a file. -/
theorem file_of_parse (h : parse settings text = .error diagnostic) : diagnostic.file = none := by
  cases hmarks : settings.marks with
  | error problem =>
    rw [parse, read, hmarks] at h
    cases h
    rfl
  | ok marks =>
    cases hscan : Annotated.scan marks text with
    | error refused =>
      simp only [parse, read, hmarks, hscan] at h
      obtain rfl := Except.error.inj h
      obtain ⟨segments, rest, literal, opened, -, -, -, rfl⟩ := Annotated.scan_unclosed hscan
      rfl
    | ok annotated =>
      rcases fault_of_scan hmarks hscan h with hfault | ⟨-, rfl⟩
      · exact hfault.file
      · rfl

/-- A file that is refused is refused by its name. -/
theorem file_of_ofFile {file : String} {content : Except String String}
    (h : ofFile settings file content = .error diagnostic) : diagnostic.file = some file := by
  cases content with
  | error reason =>
    cases h
    rfl
  | ok text =>
    obtain ⟨cause, -, rfl⟩ := mapError_error_iff.mp h
    rfl

end Document

namespace CommandLine

/-- However a path names an entry by a dash, it begins with one. -/
theorem head?_of_isName {path : String} (h : isName path "-" = true) :
    path.toList.head? = some '-' := by
  simp only [isName, Bool.and_eq_true, bne_iff_ne, ne_eq, Bool.not_eq_true', beq_iff_eq] at h
  obtain ⟨⟨hroot, hhere⟩, hnames⟩ := h
  unfold pathNames at hnames
  cases hpath : path.toList with
  | nil =>
    rw [hpath] at hnames
    simp at hnames
  | cons c rest =>
    rw [hpath] at hroot hhere hnames
    have hc : c ≠ '/' := fun h => hroot (congrArg some h)
    obtain ⟨first, others, hfields⟩ :=
      List.exists_cons_of_ne_nil (List.splitOn_ne_nil '/' (c :: rest))
    have hbegins : [c] <+: first :=
      prefix_of_splitAll hfields ⟨rest, rfl⟩ fun hm => hc (List.mem_singleton.mp hm).symm
    obtain ⟨chars, rfl⟩ := hbegins
    rw [hfields, List.map_cons] at hnames
    by_cases hsame : String.ofList ([c] ++ chars) = "."
    · -- The first name stands for the directory itself, so the path begins with `./`, or ends there.
      obtain ⟨rfl, rfl⟩ : c = '.' ∧ chars = [] := by
        simpa using congrArg String.toList hsame
      cases others with
      | nil =>
        rw [List.map_nil, hsame] at hnames
        cases hnames
      | cons other others =>
        have hwhole : ['/'].intercalate (('.' :: rest).splitOn '/') = '.' :: rest :=
          List.intercalate_splitOn '/'
        rw [hfields, List.append_nil] at hwhole
        rw [← hwhole] at hhere
        simp [List.intercalate_cons_of_ne_nil] at hhere
    · rw [List.filter_cons_of_pos (by simpa using hsame)] at hnames
      have hname := congrArg String.toList (List.cons.inj hnames).1
      rw [String.toList_ofList] at hname
      exact congrArg List.head? hname

/-- A report on a text alone does not begin with a dash. -/
theorem head?_text_of_unfiled {diagnostic : Diagnostic} (h : diagnostic.file = none) :
    diagnostic.text.toList.head? ≠ some '-' := by
  rw [Diagnostic.text, Diagnostic.location, h]
  cases diagnostic.lines <;> simp

/-- A report on a file begins as its name does. -/
theorem head?_text_of_file {diagnostic : Diagnostic} {file : String} {c : Char}
    (h : diagnostic.file = some file) (hc : file.toList.head? = some c) :
    diagnostic.text.toList.head? = some c := by
  rw [Diagnostic.text, Diagnostic.location, h]
  cases diagnostic.lines <;> simp [hc]

namespace Script

variable {tree : FileTree} {input : String} {α β : Type}

/-- What a script comes to on files and a text as the standard input. -/
def result (tree : FileTree) (input : String) (script : Script α) : α :=
  (script.run tree input).1

/-- Changing a result asks for nothing more. -/
theorem result_map (script : Script α) (f : α → β) :
    (script >>= fun a => pure (f a)).result tree input = f (script.result tree input) := by
  induction script generalizing tree input with
  | done result => rfl
  | readFile path next ih => exact ih _
  | readInput next ih => exact ih _
  | writeFile path text next ih =>
    change (run tree input (.writeFile path text _)).1 = f (run tree input _).1
    rw [run, run]
    cases tree.write path text <;> exact ih _

/-- A script that asks for files to be read and for nothing else. -/
inductive ReadsFiles : Script α → Prop where
  /-- Nothing is asked. -/
  | done (result : α) : ReadsFiles (.done result)
  /-- A file is read first. -/
  | readFile {path : String} {next : Except FileFailure String → Script α}
      (h : ∀ content, ReadsFiles (next content)) : ReadsFiles (.readFile path next)

namespace ReadsFiles

variable {script : Script α} {next : α → Script β}

/-- Files may be read one after another. -/
theorem bind (h : script.ReadsFiles) (hnext : ∀ a, (next a).ReadsFiles) :
    (script >>= next).ReadsFiles := by
  induction h with
  | done result => exact hnext result
  | readFile _ ih => exact .readFile ih

/-- Files may be read one after another unless a failure comes between. -/
theorem attempt {script : Attempt α} {next : α → Attempt β} (h : script.run.ReadsFiles)
    (hnext : ∀ a, (next a).run.ReadsFiles) : (script >>= next).run.ReadsFiles := by
  refine bind h fun read => ?_
  cases read with
  | ok a => exact hnext a
  | error reason => exact .done _

/-- Reading files takes nothing away from what follows. -/
theorem result_bind (h : script.ReadsFiles) (next : α → Script β) :
    (script >>= next).result tree input = (next (script.result tree input)).result tree input := by
  induction h with
  | done result => rfl
  | readFile _ ih => exact ih _

end ReadsFiles

end Script

/-- A document as it is printed in a form. -/
def printed (format : OutputFormat) (document : Document) : String :=
  String.ofList (trimEnd (document.format format).toList) ++ "\n"

section Runs

variable {tree : FileTree} {input : String} {settings : Settings} {choice : SettingsChoice}
  {file : String}

/-- An attempt that prints what it comes to ends with that, or with the failure. -/
theorem Attempt.result_outcome {α : Type} (attempt : Attempt α) (text : α → String) :
    (Attempt.outcome do return text (← attempt)).result tree input =
      Outcome.ofResult ((attempt.run.result tree input).map text) := by
  have hrun : (do return text (← attempt) : Attempt String).run =
      attempt.run >>= fun read => pure (read.map text) := by
    change attempt.run >>= ExceptT.bindCont _ = _
    congr 1
    funext read
    cases read <;> rfl
  rw [Attempt.outcome, Script.result_map, hrun, Script.result_map]

/-- Settings are loaded from files. -/
theorem readsFiles_load (choice : SettingsChoice) : choice.load.run.ReadsFiles := by
  unfold SettingsChoice.load
  cases choice.file with
  | none => exact .done _
  | some file =>
    exact .attempt (.readFile fun _ => .done _) fun _ => .attempt (.done _) fun _ => .done _

/-- A file is read from files. -/
theorem readsFiles_documentOf (settings : Settings) (file : String) :
    (documentOf settings file).ReadsFiles :=
  .readFile fun _ => .done _

/-- A file that is not named by a dash is read where it is. -/
theorem readDocument_of_file (h : isName file "-" = false) :
    (readDocument settings file).run.result tree input =
      ((documentOf settings file).result tree input).mapError (·.text) := by
  rw [readDocument, h]
  rfl

/-- A dash stands for the standard input. -/
theorem readDocument_of_dash (h : isName file "-" = true) :
    (readDocument settings file).run.result tree input =
      (Document.parse settings input).mapError (·.text) := by
  rw [readDocument, h]
  rfl

/-- A request whose settings cannot be loaded fails with the reason. -/
theorem result_command_of_error {reason : String} (task : Command)
    (h : choice.load.run.result tree input = .error reason) :
    (Request.command choice task).run.result tree input = .failure reason := by
  rw [Request.run, (readsFiles_load choice).result_bind, h]
  rfl

/-- Any other request runs its command. -/
theorem result_command_of_ok (task : Command)
    (h : choice.load.run.result tree input = .ok settings) :
    (Request.command choice task).run.result tree input = (task.run settings).result tree input := by
  rw [Request.run, (readsFiles_load choice).result_bind, h]

/-- A command line runs what it asks for. -/
theorem result_runArgs {args : List String} {request : Request}
    (h : Request.ofArgs? args = some request) :
    (runArgs args).result tree input = request.run.result tree input := by
  rw [runArgs, h]

end Runs

/-- Entries of two lists that belong together belong together in every way that follows for entries
of the first list. -/
theorem forall₂_imp_of_mem {α β : Type} {r t : α → β → Prop} {xs : List α} {ys : List β}
    (h : List.Forall₂ r xs ys) (himp : ∀ x ∈ xs, ∀ y, r x y → t x y) : List.Forall₂ t xs ys := by
  have hmem := (List.forall₂_and_left (p := (· ∈ xs)) xs ys).mpr ⟨fun _ hm => hm, h⟩
  exact hmem.imp fun x y hxy => himp x hxy.1 y hxy.2

/-- The last line about refused inputs, if there are any. -/
def closingLine (refused total : Nat) : String :=
  if refused = 0 then ""
  else "error: " ++ refused.repr ++ " of " ++ total.repr ++ " help files failed\n"

/-- A text is cut at the last occurrence of a character in one way only. -/
theorem eq_of_append_cons_eq {mark : Char} {front back front' back' : List Char}
    (hback : mark ∉ back) (hback' : mark ∉ back')
    (h : front ++ mark :: back = front' ++ mark :: back') : front = front' ∧ back = back' := by
  rcases List.append_eq_append_iff.mp h with ⟨middle, rfl, hmiddle⟩ | ⟨middle, rfl, hmiddle⟩
  · cases middle with
    | nil => exact ⟨(List.append_nil front).symm, (List.cons.inj hmiddle).2⟩
    | cons c middle =>
      refine absurd ?_ hback
      rw [(List.cons.inj hmiddle).2]
      exact List.mem_append_right middle List.mem_cons_self
  · cases middle with
    | nil => exact ⟨List.append_nil front', (List.cons.inj hmiddle).2.symm⟩
    | cons c middle =>
      refine absurd ?_ hback'
      rw [(List.cons.inj hmiddle).2]
      exact List.mem_append_right middle List.mem_cons_self

/-- The last line gives away how many inputs were refused. -/
theorem closingLine_inj {front other : String} {refused others total : Nat} (hrefused : refused ≠ 0)
    (hothers : others ≠ 0)
    (h : front ++ closingLine refused total = other ++ closingLine others total) :
    front = other ∧ refused = others := by
  have hblank : ∀ n : Nat, ' ' ∉ n.repr.toList :=
    fun n hm => Bool.false_ne_true ((Count.ne_of_mem_repr hm).1.symm.trans isBlank_space)
  rw [closingLine, closingLine, if_neg hrefused, if_neg hothers] at h
  have hchars := congrArg String.toList h
  simp only [String.toList_append, ← List.append_assoc, List.append_cancel_right_eq] at hchars
  have hword : "error: ".toList = "error:".toList ++ [' '] := rfl
  rw [hword] at hchars
  simp only [← List.append_assoc, List.append_assoc _ [' '], List.singleton_append] at hchars
  obtain ⟨hfront, hnumber⟩ := eq_of_append_cons_eq (hblank refused) (hblank others) hchars
  exact ⟨String.toList_inj.mp (List.append_cancel_right hfront),
    Nat.repr_inj.mp (String.toList_inj.mp hnumber)⟩

section Results

variable (results : String → Except Diagnostic Document)

/-- A file is accepted, and the line says so. -/
def AcceptedBy (file line : String) : Prop :=
  ∃ document, results file = .ok document ∧ line = acceptedLine file document

/-- A file is refused for the reason. -/
def RefusedFor (file reason : String) : Prop :=
  ∃ diagnostic, results file = .error diagnostic ∧ reason = diagnostic.text

/-- The files that are accepted, in order. -/
def acceptedOf (files : List String) : List String :=
  files.filter fun file => (results file).isOk

/-- The files that are refused, in order. -/
def refusedOf (files : List String) : List String :=
  files.filter fun file => !(results file).isOk

/-- What checking files comes to, told file by file. -/
structure Reported (files lines reasons : List String) : Prop where
  /-- There is one line for each file that is accepted. -/
  accepted : List.Forall₂ (AcceptedBy results) (acceptedOf results files) lines
  /-- There is one reason for each file that is refused. -/
  refused : List.Forall₂ (RefusedFor results) (refusedOf results files) reasons

variable {results} {file : String} {files lines reasons : List String}

/-- A file that is accepted adds a line. -/
theorem Reported.accept {document : Document} (h : Reported results files lines reasons)
    (hfile : results file = .ok document) :
    Reported results (file :: files) (acceptedLine file document :: lines) reasons := by
  have hok : (results file).isOk = true := by rw [hfile]; rfl
  constructor
  · rw [acceptedOf, List.filter_cons_of_pos (by simp [hok])]
    exact .cons ⟨document, hfile, rfl⟩ h.accepted
  · rw [refusedOf, List.filter_cons_of_neg (by simp [hok])]
    exact h.refused

/-- A file that is refused adds a reason. -/
theorem Reported.refuse {diagnostic : Diagnostic} (h : Reported results files lines reasons)
    (hfile : results file = .error diagnostic) :
    Reported results (file :: files) lines (diagnostic.text :: reasons) := by
  have hok : (results file).isOk = false := by rw [hfile]; rfl
  constructor
  · rw [acceptedOf, List.filter_cons_of_neg (by simp [hok])]
    exact h.accepted
  · rw [refusedOf, List.filter_cons_of_pos (by simp [hok])]
    exact .cons ⟨diagnostic, hfile, rfl⟩ h.refused

/-- A file that is not among the refused ones is accepted. -/
theorem exists_ok_of_not_mem (hm : file ∈ files) (h : file ∉ refusedOf results files) :
    ∃ document, results file = .ok document := by
  cases hresult : results file with
  | ok document => exact ⟨document, rfl⟩
  | error diagnostic =>
    refine absurd (List.mem_filter.mpr ⟨hm, ?_⟩) h
    rw [hresult]
    rfl

end Results

/-- What checking a file comes to. -/
def checked (settings : Settings) (tree : FileTree) (input file : String) :
    Except Diagnostic Document :=
  (documentOf settings file).result tree input

section Reports

variable (tree : FileTree) (input : String) (settings : Settings)

/-- Files are checked one after another. -/
theorem result_checkFiles (report : CheckReport) (files : List String) :
    ∃ lines reasons, Reported (checked settings tree input) files lines reasons ∧
      (checkFiles settings report files).result tree input =
        ⟨report.out ++ String.join lines, report.err ++ String.join (reasons.map (· ++ "\n")),
          report.failures + reasons.length⟩ := by
  induction files generalizing report with
  | nil =>
    have hsame : (checkFiles settings report []).result tree input = report := rfl
    exact ⟨[], [], ⟨.nil, .nil⟩, by simp [hsame]⟩
  | cons file files ih =>
    rw [checkFiles, (readsFiles_documentOf settings file).result_bind]
    cases hfile : (documentOf settings file).result tree input with
    | ok document =>
      obtain ⟨lines, reasons, hreported, hreport⟩ := ih (report.add file (.ok document))
      refine ⟨_, _, hreported.accept hfile, ?_⟩
      rw [hreport, String.join_cons]
      simp [CheckReport.add, String.append_assoc]
    | error diagnostic =>
      obtain ⟨lines, reasons, hreported, hreport⟩ := ih (report.add file (.error diagnostic))
      refine ⟨_, _, hreported.refuse hfile, ?_⟩
      rw [hreport, List.map_cons, String.join_cons]
      simp [CheckReport.add, String.append_assoc, Nat.add_right_comm, ← Nat.add_assoc]

/-- Files are read and reported in order; every one that is refused is counted. -/
theorem result_check (files : List String) :
    ∃ lines reasons, Reported (checked settings tree input) files lines reasons ∧
      ((Command.check files).run settings).result tree input =
        ⟨if reasons.length = 0 then 0 else 1, String.join lines,
          String.join (reasons.map (· ++ "\n")) ++ closingLine reasons.length files.length⟩ := by
  obtain ⟨lines, reasons, hreported, hreport⟩ :=
    result_checkFiles tree input settings .empty files
  refine ⟨lines, reasons, hreported, ?_⟩
  rw [Command.run, Script.result_map, hreport, CheckReport.outcome, closingLine]
  by_cases hnone : reasons.length = 0
  · simp [CheckReport.empty, hnone]
  · simp [CheckReport.empty, hnone, String.append_assoc]

end Reports

/-- What parsing an input alone comes to. -/
def parsed (settings : Settings) (tree : FileTree) (input file : String) :
    Except Diagnostic Document :=
  if isName file "-" then Document.parse settings input else checked settings tree input file

/-- Checking inputs agrees with parsing each of them. -/
structure Agreement (inputs : List String) (check : Outcome) (parse : String → Outcome) : Prop where
  /-- Checking succeeds exactly if every single parse does. -/
  code : check.code = 0 ↔ ∀ input ∈ inputs, (parse input).code = 0
  /-- There is one line for each input that is parsed, in order. About a file it tells the number of
  members of the document that is printed. -/
  out : ∃ lines, List.Forall₂ (fun input line => ∃ document, line = acceptedLine input document ∧
      (isName input "-" = false → ∃ format, parse input = .success (printed format document)))
    (inputs.filter fun input => (parse input).code = 0) lines ∧ check.out = String.join lines
  /-- Then there is the reason for each input that is not parsed, in order, and at last the number of
  these inputs. -/
  err : ∃ reasons, List.Forall₂ (fun input reason => parse input = .failure reason)
    (inputs.filter fun input => (parse input).code ≠ 0) reasons ∧
    check.err =
      String.join (reasons.map (· ++ "\n")) ++ closingLine reasons.length inputs.length

/-- The end of the program after an input was parsed. -/
def ended (format : OutputFormat) : Except Diagnostic Document → Outcome
  | .ok document => .success (printed format document)
  | .error diagnostic => .failure diagnostic.text

section Agreement

variable {tree : FileTree} {input file : String} {settings : Settings} {inputs : List String}
  {parse : String → Outcome}

/-- Parsing an input ends as what is read says. -/
theorem result_parse (settings : Settings) (file : String) (format : OutputFormat) :
    ((Command.parse file format).run settings).result tree input =
      ended format (parsed settings tree input file) := by
  have hread : (readDocument settings file).run.result tree input =
      (parsed settings tree input file).mapError (·.text) := by
    unfold parsed
    split
    · next hdash => exact readDocument_of_dash hdash
    · next hfile => exact readDocument_of_file (Bool.not_eq_true _ ▸ hfile)
  rw [Command.run]
  refine (Attempt.result_outcome (readDocument settings file) (printed format)).trans ?_
  rw [hread]
  cases parsed settings tree input file <;> rfl

/-- Parsing ends with code zero exactly if the input is accepted. -/
theorem code_ended {format : OutputFormat} {read : Except Diagnostic Document} :
    (ended format read).code = 0 ↔ read.isOk = true := by
  cases read with
  | ok document => exact iff_of_true rfl rfl
  | error diagnostic => exact iff_of_false Nat.one_ne_zero Bool.false_ne_true

/-- Parsing ends with a failure only if the input is refused for this reason. -/
theorem error_of_ended_eq {format : OutputFormat} {read : Except Diagnostic Document}
    {reason : String} (h : ended format read = .failure reason) :
    ∃ diagnostic, read = .error diagnostic ∧ reason = diagnostic.text := by
  cases read with
  | ok document => cases congrArg Outcome.code h
  | error diagnostic =>
    have herr : "error: " ++ diagnostic.text ++ "\n" = "error: " ++ reason ++ "\n" :=
      congrArg Outcome.err h
    exact ⟨diagnostic, rfl,
      ((String.append_right_inj _).mp ((String.append_left_inj _).mp herr)).symm⟩

/-- Checking and parsing read a file alike unless it is named by a dash. -/
theorem parsed_of_file (h : isName file "-" = false) :
    parsed settings tree input file = checked settings tree input file := by
  rw [parsed, h]
  rfl

/-- A dash is parsed as the standard input. -/
theorem parsed_of_dash (h : isName file "-" = true) :
    parsed settings tree input file = Document.parse settings input := by
  rw [parsed, h, if_pos rfl]

/-- Reasons that are equal altogether, for inputs that checking and parsing both refuse, are no
reasons about the standard input. -/
theorem not_dash_of_join_eq {refused reasons others : List String}
    (hchecked : List.Forall₂ (RefusedFor (checked settings tree input)) refused reasons)
    (hparsed : List.Forall₂ (RefusedFor (parsed settings tree input)) refused others)
    (h : String.join (reasons.map (· ++ "\n")) = String.join (others.map (· ++ "\n"))) :
    ∀ file ∈ refused, isName file "-" = false := by
  induction hchecked generalizing others with
  | nil => exact nofun
  | @cons file reason refused reasons hreason hreasons ih =>
    obtain ⟨diagnostic, hchecked, rfl⟩ := hreason
    cases hparsed with
    | cons hother hothers =>
      obtain ⟨cause, hparsed, rfl⟩ := hother
      rw [List.map_cons, List.map_cons, String.join_cons, String.join_cons] at h
      cases hdash : isName file "-" with
      | true =>
        rw [parsed_of_dash hdash] at hparsed
        have hnamed := head?_text_of_file (Document.file_of_ofFile hchecked) (head?_of_isName hdash)
        have hunnamed := head?_text_of_unfiled (Document.file_of_parse hparsed)
        have hfirst := congrArg (·.toList.head?) h
        simp only [String.toList_append, List.append_assoc, List.head?_append, hnamed] at hfirst
        cases hhead : cause.text.toList.head? with
        | none =>
          rw [hhead] at hfirst
          cases hfirst
        | some c =>
          rw [hhead] at hfirst
          exact absurd (hhead.trans hfirst.symm) hunnamed
      | false =>
        rw [parsed_of_file hdash, hchecked] at hparsed
        cases hparsed
        exact List.forall_mem_cons.mpr
          ⟨hdash, ih hothers ((String.append_right_inj _).mp h)⟩

/-- Whether an input is accepted decides with which code parsing it ends. -/
theorem filter_code (hparse : ∀ file ∈ inputs, ∃ format,
      parse file = ended format (parsed settings tree input file)) :
    (inputs.filter fun file => (parse file).code = 0) =
        acceptedOf (parsed settings tree input) inputs ∧
      (inputs.filter fun file => (parse file).code ≠ 0) =
        refusedOf (parsed settings tree input) inputs := by
  constructor <;>
  · refine List.filter_congr fun file hm => ?_
    obtain ⟨format, hformat⟩ := hparse file hm
    rw [hformat]
    simp [code_ended]

/-- No input is refused in parsing exactly if every code is zero. -/
theorem length_refused_eq_zero_iff :
    (inputs.filter fun file => (parse file).code ≠ 0).length = 0 ↔
      ∀ file ∈ inputs, (parse file).code = 0 := by
  rw [List.length_eq_zero_iff, List.filter_eq_nil_iff]
  simp

/-- Where a dash is accepted both as the standard input and as a file, checking agrees with parsing. -/
theorem agreement_of_dash_accepted (hparse : ∀ file ∈ inputs, ∃ format,
      parse file = ended format (parsed settings tree input file))
    (hdash : ∀ file ∈ inputs, isName file "-" = true →
      (∃ document, Document.parse settings input = .ok document) ∧
        ∃ document, (documentOf settings file).result tree input = .ok document) :
    Agreement inputs (((Command.check inputs).run settings).result tree input) parse := by
  obtain ⟨lines, reasons, hreported, hcheck⟩ := result_check tree input settings inputs
  have hsame : ∀ file ∈ inputs, (checked settings tree input file).isOk =
      (parsed settings tree input file).isOk := by
    intro file hm
    cases hname : isName file "-" with
    | false => rw [parsed_of_file hname]
    | true =>
      obtain ⟨⟨document, hdocument⟩, other, hother⟩ := hdash file hm hname
      rw [parsed_of_dash hname, hdocument, checked, hother]
      rfl
  obtain ⟨haccepted, hrefused⟩ := filter_code hparse
  rw [acceptedOf, ← List.filter_congr hsame] at haccepted
  rw [refusedOf, ← List.filter_congr fun file hm => congrArg (!·) (hsame file hm)] at hrefused
  rw [hcheck]
  refine ⟨?_, ⟨lines, ?_, rfl⟩, ⟨reasons, ?_, rfl⟩⟩
  · have hlength := hreported.refused.length_eq
    rw [refusedOf, ← hrefused] at hlength
    rw [← length_refused_eq_zero_iff, hlength]
    by_cases hzero : reasons.length = 0 <;> simp [hzero]
  · rw [haccepted]
    refine forall₂_imp_of_mem hreported.accepted ?_
    rintro file hm line ⟨document, hdocument, hline⟩
    refine ⟨document, hline, fun hname => ?_⟩
    obtain ⟨format, hformat⟩ := hparse file (List.mem_filter.mp hm).1
    exact ⟨format, by rw [hformat, parsed_of_file hname, hdocument, ended]⟩
  · rw [hrefused]
    refine forall₂_imp_of_mem hreported.refused ?_
    rintro file hm reason ⟨diagnostic, hdiagnostic, rfl⟩
    have hin := (List.mem_filter.mp hm).1
    obtain ⟨format, hformat⟩ := hparse file hin
    cases hname : isName file "-" with
    | false => rw [hformat, parsed_of_file hname, hdiagnostic, ended]
    | true =>
      obtain ⟨-, document, hdocument⟩ := hdash file hin hname
      cases hdiagnostic.symm.trans hdocument

/-- An input is refused both in checking and in parsing, or in neither, where as many are refused. -/
theorem refusedOf_eq_of_length_eq
    (hlength : (refusedOf (checked settings tree input) inputs).length =
      (refusedOf (parsed settings tree input) inputs).length) :
    refusedOf (checked settings tree input) inputs =
      refusedOf (parsed settings tree input) inputs := by
  -- All dashes stand for one text, so that either list holds the other one.
  cases hdash : Document.parse settings input with
  | ok document =>
    refine (List.Sublist.eq_of_length (List.monotone_filter_right inputs fun file hfile => ?_)
      hlength.symm).symm
    cases hname : isName file "-" with
    | false => rwa [parsed_of_file hname] at hfile
    | true =>
      rw [parsed_of_dash hname, hdash] at hfile
      cases hfile
  | error diagnostic =>
    refine List.Sublist.eq_of_length (List.monotone_filter_right inputs fun file hfile => ?_) hlength
    cases hname : isName file "-" with
    | false => rwa [parsed_of_file hname]
    | true =>
      rw [parsed_of_dash hname, hdash]
      rfl

/-- Where checking agrees with parsing, both give as many reasons, which are equal altogether. -/
theorem reasons_of_agreement (hparse : ∀ file ∈ inputs, ∃ format,
      parse file = ended format (parsed settings tree input file))
    (h : Agreement inputs (((Command.check inputs).run settings).result tree input) parse) :
    ∃ reasons others,
      List.Forall₂ (RefusedFor (checked settings tree input))
        (refusedOf (checked settings tree input) inputs) reasons ∧
      List.Forall₂ (RefusedFor (parsed settings tree input))
        (refusedOf (parsed settings tree input) inputs) others ∧
      String.join (reasons.map (· ++ "\n")) = String.join (others.map (· ++ "\n")) ∧
      reasons.length = others.length := by
  obtain ⟨lines, reasons, hreported, hcheck⟩ := result_check tree input settings inputs
  obtain ⟨others, hothers, herr⟩ := h.err
  have hcode := h.code
  rw [hcheck] at herr hcode
  have hnone : reasons.length = 0 ↔ others.length = 0 := by
    rw [← hothers.length_eq, length_refused_eq_zero_iff, ← hcode]
    by_cases hzero : reasons.length = 0 <;> simp [hzero]
  rw [(filter_code hparse).2] at hothers
  refine ⟨reasons, others, hreported.refused, ?_, ?_⟩
  · refine forall₂_imp_of_mem hothers fun file hm reason hreason => ?_
    obtain ⟨format, hformat⟩ := hparse file (List.mem_filter.mp hm).1
    exact error_of_ended_eq (hformat.symm.trans hreason)
  · by_cases hzero : reasons.length = 0
    · have hother := hnone.mp hzero
      rw [List.length_eq_zero_iff] at hzero hother
      rw [hzero, hother]
      exact ⟨rfl, rfl⟩
    · exact closingLine_inj hzero (mt hnone.mpr hzero) herr

/-- Where checking agrees with parsing, a dash is accepted both as the standard input and as a
file. -/
theorem dash_accepted_of_agreement (hparse : ∀ file ∈ inputs, ∃ format,
      parse file = ended format (parsed settings tree input file))
    (h : Agreement inputs (((Command.check inputs).run settings).result tree input) parse) :
    ∀ file ∈ inputs, isName file "-" = true →
      (∃ document, Document.parse settings input = .ok document) ∧
        ∃ document, (documentOf settings file).result tree input = .ok document := by
  obtain ⟨reasons, others, hchecked, hparsed, hjoin, hlength⟩ := reasons_of_agreement hparse h
  have hsame := refusedOf_eq_of_length_eq
    (hchecked.length_eq.trans (hlength.trans hparsed.length_eq.symm))
  have hfree := not_dash_of_join_eq hchecked (hsame ▸ hparsed) hjoin
  intro file hm hdash
  have hout : file ∉ refusedOf (checked settings tree input) inputs := by
    intro hrefused
    cases hdash.symm.trans (hfree file hrefused)
  obtain ⟨document, hdocument⟩ := exists_ok_of_not_mem hm (hsame ▸ hout)
  rw [parsed_of_dash hdash] at hdocument
  exact ⟨⟨document, hdocument⟩, exists_ok_of_not_mem hm hout⟩

/-- Checking inputs agrees with parsing each of them, under settings that can be loaded, exactly if
every input that is named by a dash is accepted both as the standard input, which parsing takes for
it, and as a file, which checking looks for. Under other settings all of these commands end with one
failure. -/
theorem check_agreement {checkArgs : List String} (parseArgs : String → List String)
    {choice : SettingsChoice}
    (hcheck : Request.ofArgs? checkArgs = some (.command choice (.check inputs)))
    (hparse : ∀ file ∈ inputs, ∃ format,
      Request.ofArgs? (parseArgs file) = some (.command choice (.parse file format)))
    (tree : FileTree) (input : String) :
    (∀ settings, choice.load.run.result tree input = .ok settings →
      (Agreement inputs ((runArgs checkArgs).result tree input)
          (fun file => (runArgs (parseArgs file)).result tree input) ↔
        ∀ file ∈ inputs, isName file "-" = true →
          (∃ document, Document.parse settings input = .ok document) ∧
            ∃ document, (documentOf settings file).result tree input = .ok document)) ∧
    ∀ reason, choice.load.run.result tree input = .error reason →
      (runArgs checkArgs).result tree input = .failure reason ∧
        ∀ file ∈ inputs, (runArgs (parseArgs file)).result tree input = .failure reason := by
  constructor
  · intro settings hsettings
    have hended : ∀ file ∈ inputs, ∃ format, (runArgs (parseArgs file)).result tree input =
        ended format (parsed settings tree input file) := by
      intro file hm
      obtain ⟨format, hargs⟩ := hparse file hm
      exact ⟨format, by
        rw [result_runArgs hargs, result_command_of_ok _ hsettings, result_parse]⟩
    rw [result_runArgs hcheck, result_command_of_ok _ hsettings]
    exact ⟨dash_accepted_of_agreement hended, agreement_of_dash_accepted hended⟩
  · intro reason hreason
    refine ⟨by rw [result_runArgs hcheck, result_command_of_error _ hreason], fun file hm => ?_⟩
    obtain ⟨format, hargs⟩ := hparse file hm
    rw [result_runArgs hargs, result_command_of_error _ hreason]

/-- No options about the settings. -/
def plainChoice : SettingsChoice := ⟨none, none, none, false⟩

/-- A help text with one option. -/
def optionText : String :=
  "$\x7b-v\x7d$ x\n"

/-- A help file that is in order, one with an unknown property, and one with the name of the standard
input. -/
def mixedFiles : FileTree :=
  ⟨[(["good"], some optionText), (["bad"], some "$\x7b-x | Colour: red\x7d$\n"),
    (["-"], some "plain text\n")]⟩

/-- What is reported about a settings file that is not there. -/
def lostReason : String :=
  "Failed to load config 'lost': I/O error: No such file or directory (os error 2)"

/-- Checking reports each file as parsing it does, also the one with the name of the standard input
while that input is in order too, and both fail alike if the settings cannot be loaded. -/
theorem check_agreement_mixed :
    Request.ofArgs? ["check", "good", "bad", "-"] =
        some (.command plainChoice (.check ["good", "bad", "-"])) ∧
      (∀ file ∈ ["good", "bad", "-"], Request.ofArgs? ["parse", file] =
        some (.command plainChoice (.parse file .json))) ∧
      (runArgs ["check", "good", "bad", "-"]).result mixedFiles optionText =
        ⟨1, "ok: good (1 members)\nok: - (0 members)\n",
          "bad[1] Error: Unknown property name: Colour\nerror: 1 of 3 help files failed\n"⟩ ∧
      Agreement ["good", "bad", "-"]
        ((runArgs ["check", "good", "bad", "-"]).result mixedFiles optionText)
        (fun file => (runArgs ["parse", file]).result mixedFiles optionText) ∧
      (runArgs ["--config", "lost", "check", "good"]).result mixedFiles optionText =
        .failure lostReason ∧
      ∀ file ∈ ["good"], (runArgs ["--config", "lost", "parse", file]).result mixedFiles optionText =
        .failure lostReason := by
  have hcheck : Request.ofArgs? ["check", "good", "bad", "-"] =
      some (.command plainChoice (.check ["good", "bad", "-"])) := by
    decide +kernel
  have hparse : ∀ file ∈ ["good", "bad", "-"], Request.ofArgs? ["parse", file] =
      some (.command plainChoice (.parse file .json)) := by
    decide +kernel
  have hinput : (Document.parse (plainChoice.apply .standard) optionText).toOption.map
      (·.members.length) = some 1 := by
    decide +kernel
  have hfile : ((documentOf (plainChoice.apply .standard) "-").result mixedFiles
      optionText).toOption.map (·.members.length) = some 0 := by
    decide +kernel
  obtain ⟨document, hdocument, -⟩ := exists_ok_of_toOption hinput
  obtain ⟨other, hother, -⟩ := exists_ok_of_toOption hfile
  have hnames : ∀ file ∈ ["good", "bad", "-"], isName file "-" = true → file = "-" := by
    decide +kernel
  have hlost : Request.ofArgs? ["--config", "lost", "check", "good"] =
      some (.command { plainChoice with file := some "lost" } (.check ["good"])) := by
    decide +kernel
  have hlost' : ∀ file ∈ ["good"], Request.ofArgs? ["--config", "lost", "parse", file] =
      some (.command { plainChoice with file := some "lost" } (.parse file .json)) := by
    decide +kernel
  refine ⟨hcheck, hparse, by decide +kernel, ?_,
    (check_agreement (fun file => ["--config", "lost", "parse", file]) hlost
      (fun file hm => ⟨.json, hlost' file hm⟩) mixedFiles optionText).2 _ rfl⟩
  refine ((check_agreement (fun file => ["parse", file]) hcheck
    (fun file hm => ⟨.json, hparse file hm⟩) mixedFiles optionText).1
      (plainChoice.apply .standard) rfl).mpr ?_
  intro file hm hdash
  obtain rfl := hnames file hm hdash
  exact ⟨⟨document, hdocument⟩, other, hother⟩

/-- Checking the standard input looks for a file, where parsing reads the input. -/
theorem check_agreement_dash :
    Request.ofArgs? ["check", "-"] = some (.command plainChoice (.check ["-"])) ∧
      Request.ofArgs? ["parse", "-"] = some (.command plainChoice (.parse "-" .json)) ∧
      (runArgs ["check", "-"]).result ⟨[]⟩ optionText =
        ⟨1, "", "- Error: can't read file: No such file or directory (os error 2)\n" ++
          "error: 1 of 1 help files failed\n"⟩ ∧
      ((runArgs ["parse", "-"]).result ⟨[]⟩ optionText).code = 0 ∧
      ¬Agreement ["-"] ((runArgs ["check", "-"]).result ⟨[]⟩ optionText)
        (fun file => (runArgs ["parse", file]).result ⟨[]⟩ optionText) := by
  have hcheck : (runArgs ["check", "-"]).result ⟨[]⟩ optionText =
      ⟨1, "", "- Error: can't read file: No such file or directory (os error 2)\n" ++
        "error: 1 of 1 help files failed\n"⟩ := by
    decide +kernel
  have hparse : ((runArgs ["parse", "-"]).result ⟨[]⟩ optionText).code = 0 := by
    decide +kernel
  refine ⟨by decide +kernel, by decide +kernel, hcheck, hparse, fun h => ?_⟩
  have hcode := h.code.mpr (List.forall_mem_singleton.mpr hparse)
  rw [hcheck] at hcode
  cases hcode

end Agreement

end CommandLine

end AnnotatedHelp
