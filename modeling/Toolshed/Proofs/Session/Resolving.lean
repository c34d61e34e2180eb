import Toolshed.Proofs.Session.Resolution
import Toolshed.Proofs.Session.Total

namespace Toolshed

/-!
# Sessions resolve imports

Whatever a session does between two imports keeps its invariant, up to the import
of a module with all that it imports.
-/

namespace Library

variable {library : Library} {path : ModulePath} {tree : SyntaxTree}

theorem proper_of_tree? (isTree : library.tree? path = some tree) :
    tree.Proper fun _ => True := by
  unfold tree? at isTree
  split at isTree
  · dsimp only at isTree
    split at isTree
    · obtain rfl := Option.some.inj isTree
      exact SyntaxTree.parse_proper fun _ _ _ => trivial
    · simp at isTree
  · simp at isTree

theorem tree?_eq_none (noText : (library.read path).isText = false) :
    library.tree? path = none := by
  unfold tree?
  split
  · rename_i isRead
    rw [isRead] at noText
    exact Bool.noConfusion noText
  · rfl

theorem isText_of_tree? (readable : (library.tree? path).isSome = true) :
    (library.read path).isText = true := by
  by_contra noText
  rw [tree?_eq_none (Bool.eq_false_iff.mpr noText)] at readable
  exact Bool.noConfusion readable

theorem Faulty.cons {checks : List ModuleCheck} (faulty : library.Faulty checks path)
    (entry : ModuleCheck) : library.Faulty (entry :: checks) path := by
  rcases faulty with unread | ⟨found, member, failed⟩ | onCycle
  · exact .inl unread
  · exact .inr (.inl ⟨found, List.mem_cons_of_mem _ member, failed⟩)
  · exact .inr (.inr onCycle)

end Library

namespace Report

/-- A report says what a diagnostic says, wherever it is placed. -/
structure Conveys (diagnostic : Diagnostic) (report : Report) : Prop where
  kind : report.kind = diagnostic.fault.kind
  description : report.description = diagnostic.fault.description

/-- Each diagnostic is reported, and nothing else is. -/
structure ConveyAll (diagnostics : List Diagnostic) (reports : List Report) : Prop where
  sound : ∀ report ∈ reports, ∃ diagnostic ∈ diagnostics, report.Conveys diagnostic
  complete : ∀ diagnostic ∈ diagnostics, ∃ report ∈ reports, report.Conveys diagnostic

variable {diagnostics : List Diagnostic} {diagnostic : Diagnostic} {reports : List Report}

theorem ConveyAll.cons {report : Report} (conveyed : ConveyAll diagnostics reports)
    (conveys : report.Conveys diagnostic) :
    ConveyAll (diagnostic :: diagnostics) (report :: reports) := by
  refine ⟨?_, ?_⟩
  · refine List.forall_mem_cons.mpr ⟨⟨diagnostic, List.mem_cons_self, conveys⟩, ?_⟩
    intro other member
    obtain ⟨found, isFound, same⟩ := conveyed.sound other member
    exact ⟨found, List.mem_cons_of_mem _ isFound, same⟩
  · refine List.forall_mem_cons.mpr ⟨⟨report, List.mem_cons_self, conveys⟩, ?_⟩
    intro other member
    obtain ⟨found, isFound, same⟩ := conveyed.complete other member
    exact ⟨found, List.mem_cons_of_mem _ isFound, same⟩

theorem ConveyAll.ne_nil (conveyed : ConveyAll diagnostics reports) (nonempty : diagnostics ≠ []) :
    reports ≠ [] := by
  obtain ⟨diagnostic, member⟩ := List.exists_mem_of_ne_nil diagnostics nonempty
  obtain ⟨report, isReport, _⟩ := conveyed.complete diagnostic member
  exact List.ne_nil_of_mem isReport

variable {report : Report} {place : Place}

theorem Conveys.isImportCycle {chain : List ModulePath}
    (conveys : report.Conveys ⟨.importCycle chain, place⟩) : report.isImportCycle = true := by
  have words : (Fault.importCycle chain).description =
      "Module resolution error: import cycle: " ++
        " -> ".intercalate (chain.map ModulePath.text) := by
    rfl
  unfold Report.isImportCycle
  rw [conveys.kind, conveys.description, words]
  simp [Fault.kind]

theorem Conveys.not_isImportCycle_of_message {fault : Fault} {rest : String}
    (conveys : report.Conveys ⟨fault, place⟩) (kind : fault.kind = .moduleResolution)
    (message : fault.message = "cannot " ++ rest) : report.isImportCycle = false := by
  have words : fault.description = "Module resolution error: cannot " ++ rest := by
    unfold Fault.description
    rw [kind, message]
    rfl
  unfold Report.isImportCycle
  rw [conveys.description, words]
  simp [List.isPrefixOf]

theorem Conveys.not_isImportCycle {size : Nat} (conveys : report.Conveys diagnostic)
    (inText : diagnostic.InText size) : report.isImportCycle = false := by
  unfold Report.isImportCycle
  rw [conveys.kind, decide_eq_false inText.textual.2, Bool.false_and]

end Report

namespace Compile

open Session

variable {α β : Type} {before : Session} {compiler : Compiler} {context : Context}
variable {library : Library} {start : Registry} {path entry : ModulePath}
variable {checks : List ModuleCheck} {diagnostics : List Diagnostic} {diagnostic : Diagnostic}
variable {locations : Locations}

def Ensures (step : Compile α) (before : Session) (post : α → Session → Prop) : Prop :=
  ∀ answer after, step.run before = .ok (answer, after) → post answer after

namespace Ensures

variable {post : α → Session → Prop} {step : Compile α}

theorem pure {answer : α} (holds : post answer before) :
    Ensures (Pure.pure answer) before post := by
  rintro _ _ ⟨⟩
  exact holds

theorem bind {next : α → Compile β} {middle : α → Session → Prop} {post : β → Session → Prop}
    (first : Ensures step before middle)
    (rest : ∀ answer session, middle answer session → Ensures (next answer) session post) :
    Ensures (step >>= next) before post := by
  intro last after isRun
  replace isRun : (step.run before >>= fun result => (next result.1).run result.2) =
      .ok (last, after) := isRun
  cases ran : step.run before with
  | error breakdown =>
    rw [ran] at isRun
    cases isRun
  | ok result =>
    rw [ran] at isRun
    exact rest result.1 result.2 (first result.1 result.2 ran) last after isRun

theorem changing {change : Session → Session} {post : PUnit → Session → Prop}
    (holds : post ⟨⟩ (change before)) : Ensures (modify change) before post := by
  rintro _ _ ⟨⟩
  exact holds

theorem throwing {breakdown : Breakdown} : Ensures (throw breakdown) before post := by
  rintro _ _ ⟨⟩

theorem imp {weaker : α → Session → Prop} (ensures : Ensures step before post)
    (implies : ∀ answer after, post answer after → weaker answer after) :
    Ensures step before weaker :=
  fun answer after isRun => implies answer after (ensures answer after isRun)

end Ensures

theorem ensures_get : Ensures (get : Compile Session) before fun answer after =>
    before = answer ∧ before = after := by
  rintro _ _ ⟨⟩
  exact ⟨rfl, rfl⟩

theorem ensures_ofDiagnostic :
    Ensures (Report.ofDiagnostic path locations diagnostic : Except Breakdown Report) before
      fun shown after =>
        before = after ∧
          ∃ range,
            diagnostic.resolve locations = .ok range ∧
              shown = ⟨diagnostic.fault.kind, path, diagnostic.fault.description, range⟩ := by
  intro shown after isRun
  unfold Report.ofDiagnostic at isRun
  cases resolved : diagnostic.resolve locations with
  | error breakdown =>
    rw [resolved] at isRun
    cases isRun
  | ok range =>
    rw [resolved] at isRun
    obtain ⟨rfl, rfl⟩ := Prod.mk.inj (Except.ok.inj isRun)
    exact ⟨rfl, range, rfl, rfl⟩

theorem ensures_report :
    Ensures (report path locations diagnostics) before fun _ after =>
      ∃ reports,
        after = { before with reports := before.reports ++ reports } ∧
          Report.ConveyAll diagnostics reports := by
  induction diagnostics generalizing before with
  | nil => exact .pure ⟨[], by simp, by simp, by simp⟩
  | cons first rest ih =>
    refine .bind ensures_ofDiagnostic ?_
    rintro shown _ ⟨rfl, range, _, isShown⟩
    have conveys : shown.Conveys first := by
      rw [isShown]
      exact ⟨rfl, rfl⟩
    have noted : Ensures (modify fun session =>
        { session with reports := session.reports ++ [shown] }) before fun _ after =>
          { before with reports := before.reports ++ [shown] } = after :=
      .changing rfl
    refine .bind noted ?_
    rintro _ _ rfl
    refine ih.imp ?_
    rintro _ _ ⟨reports, rfl, conveyed⟩
    exact ⟨shown :: reports, by simp, conveyed.cons conveys⟩

def Resolves
    (library : Library)
    (context : Context)
    (start : Registry)
    (entry : ModulePath)
    (require : ModulePath → Compile Required) : Prop :=
  ∀ session checks path,
    session.Resolved library context start entry checks →
    session.Expects library entry path →
    Ensures (require path) session fun required after =>
      ∃ later,
        after.Resolved library context start entry later ∧
          session.Follows library [path] after ∧
          after.Answers library later path required

structure Summarises
    (library : Library)
    (session : Session)
    (checks : List ModuleCheck)
    (imports : List Import)
    (summary : ImportSummary) : Prop where
  interfaces : summary.interfaces = ModuleCheck.interfaces checks imports
  ready :
    summary.ready =
      imports.all fun entry => (ModuleCheck.interface? checks entry.path).isSome
  answers :
    ∀ entry ∈ imports,
      ∃ required,
        session.Answers library checks entry.path required ∧
          ∀ fault,
            required.fault? entry.path = some fault →
            ⟨fault, .node entry.id⟩ ∈ summary.diagnostics
  faults :
    ∀ diagnostic ∈ summary.diagnostics,
      ∃ entry ∈ imports,
        ∃ required,
          session.Answers library checks entry.path required ∧
            required.fault? entry.path = some diagnostic.fault

namespace Summarises

variable {session : Session} {checks : List ModuleCheck} {first : Import} {rest : List Import}
variable {summary : ImportSummary} {required : Required}

variable (summarises : Summarises library session checks rest summary)
include summarises

theorem answers_cons {diagnostics : List Diagnostic}
    (answered : session.Answers library checks first.path required)
    (here :
      ∀ fault,
        required.fault? first.path = some fault →
        ⟨fault, .node first.id⟩ ∈ diagnostics)
    (later : ∀ diagnostic ∈ summary.diagnostics, diagnostic ∈ diagnostics) :
    ∀ entry ∈ first :: rest,
      ∃ required,
        session.Answers library checks entry.path required ∧
          ∀ fault,
            required.fault? entry.path = some fault →
            ⟨fault, .node entry.id⟩ ∈ diagnostics := by
  refine List.forall_mem_cons.mpr ⟨⟨required, answered, here⟩, fun entry member => ?_⟩
  obtain ⟨required, answered, found⟩ := summarises.answers entry member
  exact ⟨required, answered, fun fault isFault => later _ (found fault isFault)⟩

theorem cons_ready {interface : TypeId}
    (answered : session.Answers library checks first.path (.ready interface)) :
    Summarises library session checks (first :: rest)
      { summary with interfaces := (first.path, interface) :: summary.interfaces } := by
  have found : ModuleCheck.interface? checks first.path = some interface := answered
  refine ⟨?_, ?_, ?_, ?_⟩
  · simp [summarises.interfaces, ModuleCheck.interfaces, found]
  · simp [summarises.ready, found]
  · refine summarises.answers_cons answered (fun _ impossible => ?_) fun _ => id
    simp [Required.fault?] at impossible
  · intro diagnostic member
    obtain ⟨entry, isEntry, found⟩ := summarises.faults diagnostic member
    exact ⟨entry, List.mem_cons_of_mem _ isEntry, found⟩

theorem cons_unready
    (resolved : session.Resolved library context start entry checks)
    (answered : session.Answers library checks first.path required)
    (notReady : ∀ interface, required ≠ .ready interface) :
    Summarises library session checks (first :: rest)
      { summary with
        diagnostics :=
          ((required.fault? first.path).toList.map fun fault =>
            (⟨fault, .node first.id⟩ : Diagnostic)) ++ summary.diagnostics
        ready := false } := by
  have noInterface := resolved.interface?_eq_none answered notReady
  refine ⟨?_, ?_, ?_, ?_⟩
  · simp [summarises.interfaces, ModuleCheck.interfaces, noInterface]
  · simp [noInterface]
  · refine summarises.answers_cons answered (fun fault isFault => ?_) fun _ member =>
      List.mem_append_right _ member
    exact List.mem_append_left _ (List.mem_map_of_mem (Option.mem_toList.mpr isFault))
  · intro diagnostic member
    rcases List.mem_append.mp member with isFirst | isRest
    · obtain ⟨fault, isFault, rfl⟩ := List.mem_map.mp isFirst
      exact ⟨first, List.mem_cons_self, required, answered, Option.mem_toList.mp isFault⟩
    · obtain ⟨entry, isEntry, found⟩ := summarises.faults diagnostic isRest
      exact ⟨entry, List.mem_cons_of_mem _ isEntry, found⟩

end Summarises

theorem ensures_requireAll {require : ModulePath → Compile Required} {imports : List Import}
    (resolves : Resolves library context start entry require)
    (resolved : before.Resolved library context start entry checks)
    (expects : ∀ imported ∈ imports, before.Expects library entry imported.path) :
    Ensures (requireAll require imports) before fun summary after =>
      ∃ later,
        after.Resolved library context start entry later ∧
          before.Follows library (imports.map Import.path) after ∧
          Summarises library after later imports summary := by
  induction imports generalizing before checks with
  | nil =>
    exact .pure ⟨checks, resolved, .refl (by simp), rfl, rfl, by simp, by simp⟩
  | cons first rest ih =>
    obtain ⟨expectsFirst, expectsRest⟩ := List.forall_mem_cons.mp expects
    refine .bind (resolves before checks first.path resolved expectsFirst) ?_
    rintro required middle ⟨checksFirst, resolvedFirst, followsFirst, answered⟩
    refine .bind (ih resolvedFirst fun imported member =>
      followsFirst.expects (expectsRest imported member)) ?_
    rintro summary after ⟨later, resolvedAfter, followsRest, summarises⟩
    have follows := followsFirst.trans followsRest
    have answers := followsRest.answers resolvedFirst resolvedAfter answered
    split
    · exact .pure ⟨later, resolvedAfter, follows, summarises.cons_ready answers⟩
    · rename_i notReady
      exact .pure ⟨later, resolvedAfter, follows,
        summarises.cons_unready resolvedAfter answers notReady⟩

theorem exists_circular_of_fault? {session : Session} {required : Required} {report : Report}
    (resolved : session.Resolved library context start entry checks)
    (expects : session.Expects library entry path)
    (answers : session.Answers library checks path required)
    (isFault : required.fault? path = some diagnostic.fault) (conveys : report.Conveys diagnostic)
    (isCycle : report.isImportCycle = true) :
    ∃ chain,
      report.description = (Fault.importCycle chain).description ∧
        library.Circular chain ∧ ∀ path ∈ chain, library.Reaches entry path := by
  obtain ⟨fault, place⟩ := diagnostic
  cases required with
  | ready interface => simp [Required.fault?] at isFault
  | failed => simp [Required.fault?] at isFault
  | cycle chain =>
    obtain rfl := Option.some.inj isFault
    obtain ⟨inProgress, rfl⟩ := answers
    exact ⟨_, conveys.description, resolved.walked.circular expects inProgress,
      resolved.reached_of_mem_cycle expects⟩
  | missing =>
    obtain rfl := Option.some.inj isFault
    have words : (Fault.missingModule path).message =
        "cannot " ++ ("find module " ++ Fault.quoted path.text) := by
      rfl
    rw [conveys.not_isImportCycle_of_message rfl words] at isCycle
    exact Bool.noConfusion isCycle
  | unreadable failure =>
    obtain rfl := Option.some.inj isFault
    have words : (Fault.unreadableModule failure.message).message =
        "cannot " ++ ("read " ++ failure.file ++ ": " ++ failure.reason) := by
      rfl
    rw [conveys.not_isImportCycle_of_message rfl words] at isCycle
    exact Bool.noConfusion isCycle

theorem outcome_unread {reports : List Report} {size : Nat}
    (resolved : before.Resolved library context start entry checks)
    (reached : library.Reaches entry path) (unread : library.tree? path = none)
    (inText : ∀ diagnostic ∈ diagnostics, diagnostic.InText size) (faulty : diagnostics ≠ [])
    (conveyed : Report.ConveyAll diagnostics reports) :
    Settled library context start entry path before
      { before with reports := before.reports ++ reports } checks checks .failed := by
  have noImports : ∀ imported, ¬library.Imports path imported := by
    intro imported isImported
    have readable := isImported.isSome_tree?
    rw [unread] at readable
    exact Bool.noConfusion readable
  have noCycles : ∀ report ∈ reports, report.isImportCycle = false := by
    intro report member
    obtain ⟨diagnostic, isDiagnostic, conveys⟩ := conveyed.sound report member
    exact conveys.not_isImportCycle (inText diagnostic isDiagnostic)
  have logged := resolved.logged
  refine ⟨rfl, rfl, rfl, ?_, logged.valid, logged.registry, ?_, ?_, logged.modules, ?_, ?_, ?_, ?_⟩
  · exact fun imported isImported => (noImports imported isImported).elim
  · intro other
    refine ⟨.inl, ?_⟩
    rintro (old | ⟨rfl, readable⟩)
    · exact old
    · rw [unread] at readable
      exact Bool.noConfusion readable
  · intro other interface
    simp
  · exact logged.ordered.imp fun ⟨report, member, isCycle⟩ =>
      ⟨report, List.mem_append_left _ member, isCycle⟩
  · exact fun _ => List.append_ne_nil_of_right_ne_nil _ (conveyed.ne_nil faulty)
  · exact fun _ => ⟨path, reached, .inl unread⟩
  · intro report member isCycle
    rcases List.mem_append.mp member with old | new
    · exact resolved.accounted.cycles report old isCycle
    · rw [noCycles report new] at isCycle
      exact Bool.noConfusion isCycle

section Read

variable {checks : List ModuleCheck} {earlier : List ModulePath} {tree : SyntaxTree}
variable {summary : ImportSummary} {fromImports fromCheck : List Report}
variable {require : ModulePath → Compile Required}

section Outcome

variable (resolved : before.Resolved library context start entry checks)
variable (inProgress : before.inProgress = earlier ++ [path])
variable (isTree : library.tree? path = some tree)
variable (summarises : Summarises library before checks tree.imports summary)
variable (conveyedImports : Report.ConveyAll summary.diagnostics fromImports)
variable (conveyedCheck :
  Report.ConveyAll (ModuleCheck.next context start checks path tree).checked.diagnostics fromCheck)

include resolved inProgress isTree

theorem expects_imports :
    ∀ imported ∈ tree.imports, before.Expects library entry imported.path := by
  intro imported member
  have isImported := (Library.imports_iff isTree).mpr ⟨imported, member, rfl⟩
  have reached : library.Reaches entry path :=
    resolved.walked.reached path (List.mem_append_right _ (inProgress ▸ by simp))
  refine ⟨reached.tail isImported, fun last isLast => ?_⟩
  rw [inProgress, List.getLast?_concat] at isLast
  exact Option.some.inj isLast ▸ isImported

include summarises conveyedImports

theorem ordered_next :
    library.Ordered
      (∃ report ∈ before.reports ++ fromImports ++ fromCheck, report.isImportCycle = true)
      (ModuleCheck.next context start checks path tree :: checks) := by
  refine ⟨?_, ?_⟩
  · intro imported isImported readable
    obtain ⟨site, isSite, rfl⟩ := (Library.imports_iff isTree).mp isImported
    obtain ⟨required, answers, faults⟩ := summarises.answers site isSite
    refine (resolved.checked_or_onCycle inProgress isImported answers readable).imp id ?_
    rintro ⟨onCycle, chain, rfl⟩
    obtain ⟨report, isReport, conveys⟩ := conveyedImports.complete _ (faults _ rfl)
    exact ⟨onCycle, report, List.mem_append_left _ (List.mem_append_right _ isReport),
      conveys.isImportCycle⟩
  · refine resolved.logged.ordered.imp ?_
    rintro ⟨report, isReport, isCycle⟩
    exact ⟨report, List.mem_append_left _ (List.mem_append_left _ isReport), isCycle⟩

include conveyedCheck

omit inProgress isTree in
theorem reported_next
    (failed : (ModuleCheck.next context start checks path tree).compiled = false) :
    before.reports ++ fromImports ++ fromCheck ≠ [] := by
  rcases Bool.and_eq_false_iff.mp failed with unready | faulty
  · obtain ⟨site, isSite, noInterface⟩ : ∃ site ∈ tree.imports,
        ModuleCheck.interface? checks site.path = none := by
      simpa [ModuleCheck.next] using unready
    obtain ⟨required, answers, faults⟩ := summarises.answers site isSite
    rcases resolved.reported_of_unready answers noInterface with ⟨fault, isFault⟩ | reported
    · have conveyed := conveyedImports.ne_nil (List.ne_nil_of_mem (faults fault isFault))
      exact List.append_ne_nil_of_left_ne_nil (List.append_ne_nil_of_right_ne_nil _ conveyed) _
    · exact List.append_ne_nil_of_left_ne_nil (List.append_ne_nil_of_left_ne_nil reported _) _
  · have found : (ModuleCheck.next context start checks path tree).checked.diagnostics ≠ [] := by
      simpa [Checked.success] using faulty
    exact List.append_ne_nil_of_right_ne_nil _ (conveyedCheck.ne_nil found)

theorem cause_next (reported : before.reports ++ fromImports ++ fromCheck ≠ []) :
    ∃ cause,
      library.Reaches entry cause ∧
        library.Faulty (ModuleCheck.next context start checks path tree :: checks) cause := by
  have older : (∃ cause, library.Reaches entry cause ∧ library.Faulty checks cause) →
      ∃ cause,
        library.Reaches entry cause ∧
          library.Faulty (ModuleCheck.next context start checks path tree :: checks) cause :=
    fun ⟨cause, reaches, faulty⟩ => ⟨cause, reaches, faulty.cons _⟩
  obtain ⟨report, member⟩ := List.exists_mem_of_ne_nil _ reported
  simp only [List.mem_append] at member
  rcases member with (old | isImport) | isCheck
  · exact older (resolved.accounted.cause (List.ne_nil_of_mem old))
  · obtain ⟨diagnostic, isDiagnostic, _⟩ := conveyedImports.sound report isImport
    obtain ⟨site, isSite, required, answers, isFault⟩ := summarises.faults diagnostic isDiagnostic
    exact older (resolved.exists_faulty (expects_imports resolved inProgress isTree site isSite)
      answers isFault)
  · obtain ⟨diagnostic, isDiagnostic, _⟩ := conveyedCheck.sound report isCheck
    refine ⟨path, resolved.walked.reached path (List.mem_append_right _ (inProgress ▸ by simp)),
      .inr (.inl ⟨_, List.mem_cons_self, rfl, ?_⟩)⟩
    exact List.isEmpty_eq_false_iff.mpr (List.ne_nil_of_mem isDiagnostic)

theorem cycles_next :
    ∀ report ∈ before.reports ++ fromImports ++ fromCheck, library.TracesCycle entry report := by
  intro report member isCycle
  simp only [List.mem_append] at member
  rcases member with (old | isImport) | isCheck
  · exact resolved.accounted.cycles report old isCycle
  · obtain ⟨diagnostic, isDiagnostic, conveys⟩ := conveyedImports.sound report isImport
    obtain ⟨site, isSite, required, answers, isFault⟩ := summarises.faults diagnostic isDiagnostic
    exact exists_circular_of_fault? resolved
      (expects_imports resolved inProgress isTree site isSite) answers isFault conveys isCycle
  · obtain ⟨diagnostic, isDiagnostic, conveys⟩ := conveyedCheck.sound report isCheck
    have inText := (Library.proper_of_tree? isTree).check_inText diagnostic isDiagnostic
    rw [conveys.not_isImportCycle inText] at isCycle
    exact Bool.noConfusion isCycle

theorem outcome_read (modules : List CompiledModule)
    (listed :
      modules.map CompiledModule.path =
        if (ModuleCheck.next context start checks path tree).compiled then [path] else []) :
    Settled library context start entry path before
      { before with
        registry := (ModuleCheck.next context start checks path tree).checked.registry
        reports := before.reports ++ fromImports ++ fromCheck
        modules := before.modules ++ modules }
      checks (ModuleCheck.next context start checks path tree :: checks)
      (if (ModuleCheck.next context start checks path tree).compiled then
        .compiled (ModuleCheck.next context start checks path tree).checked.interface
      else
        .failed) := by
  have isLast : path ∈ before.inProgress := inProgress ▸ by simp
  have notDone := not_mem_done_of_inProgress resolved.walked isLast
  have isNew : path ∉ checks.map ModuleCheck.path := fun member =>
    notDone ((resolved.logged.parsed path).mp member).1
  refine ⟨rfl, rfl, rfl, ?_, .next resolved.logged.valid isTree isNew, rfl, ?_, ?_, ?_,
    ordered_next resolved inProgress isTree summarises conveyedImports, ?_,
    cause_next resolved inProgress isTree summarises conveyedImports conveyedCheck,
    cycles_next resolved inProgress isTree summarises conveyedImports conveyedCheck⟩
  · intro imported isImported isText
    obtain ⟨site, isSite, rfl⟩ := (Library.imports_iff isTree).mp isImported
    obtain ⟨required, answers, _⟩ := summarises.answers site isSite
    exact resolved.mem_visited answers isText
  · intro other
    rw [List.map_cons, List.mem_cons, or_comm]
    refine or_congr_right ⟨?_, And.left⟩
    rintro rfl
    exact ⟨rfl, Option.isSome_of_eq_some isTree⟩
  · intro other interface
    rw [ModuleCheck.interface?_cons]
    by_cases same : path = other
    · subst same
      rw [ModuleCheck.interface?_eq_none isNew]
      cases (ModuleCheck.next context start checks path tree).compiled <;>
        simp [ModuleCheck.next]
    · have differs : (ModuleCheck.next context start checks path tree).path ≠ other := same
      simp [differs, Ne.symm same]
  · rw [ModuleCheck.compiledPaths_cons, List.map_append, listed, resolved.logged.modules]
    cases (ModuleCheck.next context start checks path tree).compiled <;> simp [ModuleCheck.next]
  · rintro (failed | reported)
    · refine reported_next resolved summarises conveyedImports conveyedCheck ?_
      by_contra compiled
      rw [if_pos ((Bool.not_eq_false _).mp compiled)] at failed
      exact ModuleState.noConfusion failed
    · exact List.append_ne_nil_of_left_ne_nil (List.append_ne_nil_of_left_ne_nil reported _) _

end Outcome

theorem ensures_generate {resolutions : Table Resolution} :
    Ensures (generate compiler path tree resolutions) before fun _ after =>
      ∃ compiled : CompiledModule,
        compiled.path = path ∧ after = { before with modules := before.modules ++ [compiled] } := by
  unfold generate
  split
  · exact .throwing
  · dsimp only
    split
    · exact .throwing
    · exact .changing ⟨_, rfl, rfl⟩

variable (resolves : Resolves library context start entry require)
include resolves

theorem ensures_compileTree
    (resolved : before.Resolved library context start entry checks)
    (inProgress : before.inProgress = earlier ++ [path]) (isTree : library.tree? path = some tree) :
    Ensures (compileTree compiler context require path tree) before fun state after =>
      ∃ middle checks later,
        before.Follows library (library.importsOf path) middle ∧
          middle.Resolved library context start entry checks ∧
          Settled library context start entry path middle after checks later state := by
  refine .bind (ensures_requireAll resolves resolved
    (expects_imports resolved inProgress isTree)) ?_
  rintro summary middle ⟨checks, resolvedMiddle, follows, summarises⟩
  rw [← Library.importsOf_eq isTree] at follows
  have inProgressMiddle := follows.inProgress.trans inProgress
  refine .bind ensures_report ?_
  rintro _ _ ⟨fromImports, rfl, conveyedImports⟩
  -- The check is the next one after those that the imports left.
  let next := ModuleCheck.next context start checks path tree
  have isNext : tree.check path context middle.registry summary.interfaces = next.checked := by
    rw [resolvedMiddle.logged.registry, summarises.interfaces]
    rfl
  have isReady : summary.ready = next.ready := summarises.ready
  have checking : Ensures (check context path tree summary.interfaces)
      { middle with reports := middle.reports ++ fromImports } fun checked after =>
        next.checked = checked ∧
          { middle with
            reports := middle.reports ++ fromImports
            registry := next.checked.registry } = after := by
    rintro _ _ ⟨⟩
    exact ⟨isNext.symm, by rw [← isNext]⟩
  refine .bind checking ?_
  rintro _ _ ⟨rfl, rfl⟩
  refine .bind ensures_report ?_
  rintro _ _ ⟨fromCheck, rfl, conveyedCheck⟩
  rw [isReady]
  have outcome := fun modules listed =>
    outcome_read resolvedMiddle inProgressMiddle isTree summarises conveyedImports conveyedCheck
      modules listed
  split
  · rename_i compiled
    have isCompiled : next.compiled = true := compiled
    refine .bind ensures_generate ?_
    rintro _ _ ⟨module, isPath, rfl⟩
    have outcomeHere := outcome [module] (by rw [if_pos isCompiled, ← isPath]; rfl)
    rw [if_pos isCompiled] at outcomeHere
    exact .pure ⟨middle, checks, next :: checks, follows, resolvedMiddle, outcomeHere⟩
  · rename_i failed
    have isFailed : ¬next.compiled = true := failed
    have outcomeHere := outcome [] (by rw [if_neg isFailed]; rfl)
    rw [if_neg isFailed, List.append_nil] at outcomeHere
    exact .pure ⟨middle, checks, next :: checks, follows, resolvedMiddle, outcomeHere⟩

theorem ensures_compileScan {text : String}
    (resolved : before.Resolved library context start entry checks)
    (inProgress : before.inProgress = earlier ++ [path]) (isText : library.read path = .text text) :
    Ensures (compileScan compiler context require path (Token.scan text)) before fun state after =>
      ∃ middle checks later,
        before.Follows library (library.importsOf path) middle ∧
          middle.Resolved library context start entry checks ∧
          Settled library context start entry path middle after checks later state := by
  unfold compileScan
  dsimp only
  split
  · rename_i isRead
    have isTree : library.tree? path = some (SyntaxTree.parse (Token.scan text).tokens).tree := by
      simp only [Library.tree?, isText]
      rw [if_pos isRead]
    exact ensures_compileTree resolves resolved inProgress isTree
  · rename_i isFaulty
    have unread : library.tree? path = none := by
      simp only [Library.tree?, isText]
      rw [if_neg isFaulty]
    have reached := resolved.walked.reached path (List.mem_append_right _ (inProgress ▸ by simp))
    have inText : ∀ diagnostic ∈
        (Token.scan text).diagnostics ++ (SyntaxTree.parse (Token.scan text).tokens).diagnostics,
        diagnostic.InText
          (SyntaxTree.parse (Token.scan text).tokens).tree.arena.locations.size := by
      rw [List.forall_mem_append]
      exact ⟨Token.scan_inText text _, SyntaxTree.parse_inText _⟩
    have faulty : (Token.scan text).diagnostics ++
        (SyntaxTree.parse (Token.scan text).tokens).diagnostics ≠ [] := by
      intro silent
      obtain ⟨scanned, parsed⟩ := List.append_eq_nil_iff.mp silent
      exact isFaulty (by simp [scanned, Parsed.success, parsed])
    refine .bind ensures_report ?_
    rintro _ _ ⟨reports, rfl, conveyed⟩
    have follows : before.Follows library (library.importsOf path) before := by
      refine .refl fun imported isImported => ?_
      simp [Library.importsOf, unread] at isImported
    exact .pure ⟨before, checks, checks, follows, resolved,
      outcome_unread resolved reached unread inText faulty conveyed⟩

theorem ensures_compileText {text : String}
    (resolved : before.Resolved library context start entry checks)
    (inProgress : before.inProgress = earlier ++ [path]) (isText : library.read path = .text text) :
    Ensures (compileText compiler context require entry path text) before fun state after =>
      ∃ middle checks later,
        before.Follows library (library.importsOf path) middle ∧
          middle.Resolved library context start entry checks ∧
          Settled library context start entry path middle after checks later state := by
  unfold compileText
  split
  · have noted : Ensures (modify fun session =>
        { session with tokens := some (Token.scan text).tokens }) before fun _ after =>
          before.noting (Token.scan text).tokens = after :=
      .changing rfl
    refine .bind noted ?_
    rintro _ _ rfl
    refine (ensures_compileScan resolves (resolved.noting _) inProgress isText).imp ?_
    rintro state after ⟨middle, checks, later, follows, rest⟩
    exact ⟨middle, checks, later, ⟨follows.inProgress, follows.newer⟩, rest⟩
  · exact ensures_compileScan resolves resolved inProgress isText

end Read

theorem ensures_compileModule {require : ModulePath → Compile Required} {text : String}
    (resolves : Resolves library context start entry require)
    (resolved : before.Resolved library context start entry checks)
    (expects : before.Expects library entry path) (isText : library.read path = .text text)
    (isNew : path ∉ before.visited) :
    Ensures (compileModule compiler context require entry path text) (before.asking path)
      fun required after =>
        ∃ later,
          after.Resolved library context start entry later ∧
            before.Follows library [path] after ∧
            after.Answers library later path required := by
  have entered := resolved.entering expects (by rw [isText]; rfl) isNew
  have enters : Ensures (modify fun session =>
      { session with inProgress := session.inProgress ++ [path] }) (before.asking path)
        fun _ after => (before.asking path).entering path = after :=
    .changing rfl
  refine .bind enters ?_
  rintro _ _ rfl
  refine .bind (ensures_compileText resolves entered rfl isText) ?_
  rintro state after ⟨middle, checks, later, follows, resolvedMiddle, outcome⟩
  have left := outcome.leaving resolvedMiddle follows.inProgress
  have leaves : Ensures (modify fun session =>
      { session with
        inProgress := session.inProgress.dropLast
        done := (path, state) :: session.done }) after fun _ final =>
          after.leaving path state = final :=
    .changing rfl
  refine .bind leaves ?_
  rintro _ _ rfl
  refine .pure ⟨later, left, outcome.follows follows, ?_⟩
  have isDone : (path, state) ∈ (after.leaving path state).done := List.mem_cons_self
  cases state with
  | compiled interface => exact (left.logged.compiled path interface).mp isDone
  | failed => exact isDone

theorem resolves_require (compiler : Compiler) (library : Library) (context : Context)
    (start : Registry) (entry : ModulePath) (fuel : Nat) :
    Resolves library context start entry (require compiler library context entry fuel) := by
  induction fuel with
  | zero => exact fun _ _ _ _ _ => .throwing
  | succ fuel ih =>
    intro session checks path resolved expects
    refine .bind ensures_get ?_
    rintro _ _ ⟨rfl, rfl⟩
    have stays : (library.read path).isText = true → session.Follows library [path] session :=
      fun isText => .refl (List.forall_mem_singleton.mpr isText)
    split
    · rename_i state found
      have isDone : (path, state) ∈ session.done := by
        obtain ⟨earlier, later, split, _⟩ := List.lookup_eq_some_iff.mp found
        simp [split]
      have isText := resolved.walked.texts path
        (List.mem_append_left _ (List.mem_map_of_mem isDone))
      refine .pure ⟨checks, resolved, stays isText, ?_⟩
      cases state with
      | compiled interface => exact (resolved.logged.compiled path interface).mp isDone
      | failed => exact isDone
    · rename_i notDone
      split
      · rename_i inProgress
        have isThere : path ∈ session.inProgress := List.contains_iff_mem.mp inProgress
        have isText := resolved.walked.texts path (List.mem_append_right _ isThere)
        exact .pure ⟨checks, resolved, stays isText, isThere, rfl⟩
      · rename_i notInProgress
        have isNew : path ∉ session.visited := by
          rw [visited, List.mem_append, not_or]
          refine ⟨fun isDone => ?_, by simpa using notInProgress⟩
          obtain ⟨⟨_, state⟩, member, rfl⟩ := List.mem_map.mp isDone
          have differs := List.lookup_eq_none_iff.mp notDone _ member
          simp at differs
        have asks : Ensures (ask library path) session fun reading after =>
            library.read path = reading ∧ session.asking path = after := by
          rintro _ _ ⟨⟩
          exact ⟨rfl, rfl⟩
        refine .bind asks ?_
        rintro reading _ ⟨isRead, rfl⟩
        have askedOnly : (library.read path).isText = false →
            session.Follows library [path] (session.asking path) :=
          fun _ => ⟨rfl, [], rfl, fun other _ => by simp [Session.asking]⟩
        cases reading with
        | absent =>
          have noText : (library.read path).isText = false := by rw [isRead]; rfl
          exact .pure ⟨checks, resolved.asking noText, askedOnly noText, isRead⟩
        | unreadable failure =>
          have noText : (library.read path).isText = false := by rw [isRead]; rfl
          exact .pure ⟨checks, resolved.asking noText, askedOnly noText, isRead⟩
        | text text =>
          exact ensures_compileModule ih resolved expects isRead isNew

end Compile

end Toolshed
