import EntityTypings.Proofs.Reports
import EntityTypings.Proofs.TreeChanges

/-!
# What a run of the generating command leaves

A run of the command on a file tree either has no source to deliver (`Sourceless`), because the
settings or the responses cannot be had, generation fails or there are no schemas, or it has
prepared one (`Prepared`), and only then is anything printed or written.

The main statement, `outcome_of_run`, says what is left behind. A run without a source ends with
status 1, prints nothing and changes nothing. A run that succeeds has printed the source or
written it to the file that the settings name, and nothing else. A prepared run can only fail in
making the directory or writing the file, so whatever problems are reported with the source do not
matter for the status, and a run that fails has changed no file.
-/

namespace EntityTypings.GenerateCommand

open Arguments FileTree FileTree.Run

/-! ### Writing the source -/

/-- The source can be written: the directory can be made, and after that the file. -/
def CanWrite (t : FileTree) (s : Settings) (o : Generation.Output) : Prop :=
  ∃ made t', (FileAccess.createDirectories s.output.path : FileTree.Run _).run t = (.ok (), made) ∧
    made.write s.outputFile o.text.toUTF8 = .ok t'

/-- The file is written after the directory has been made. -/
theorem writeSource_run (s : Settings) (o : Generation.Output) (t : FileTree) :
    (writeSource s o : FileTree.Run Report).run t =
      match (FileAccess.createDirectories s.output.path : FileTree.Run _).run t with
      | (.error e, made) =>
        (.failed ("failed to create " ++ s.output.path ++ ": " ++ e.message), made)
      | (.ok (), made) =>
        match made.write s.outputFile o.text.toUTF8 with
        | .error e => (.failed ("failed to write " ++ s.outputFile ++ ": " ++ e.message), made)
        | .ok t' => (written s.outputFile o, t') := by
  rw [writeSource, StateT.run_bind]
  rcases (FileAccess.createDirectories s.output.path : FileTree.Run _).run t with ⟨e | _, made⟩
  · rfl
  · have hwrite : (FileAccess.writeText s.outputFile o.text : FileTree.Run _).run made =
        match made.write s.outputFile o.text.toUTF8 with
        | .error e => (.error e, made)
        | .ok t' => (.ok (), t') := run_change _ made
    dsimp only
    show (FileAccess.writeText s.outputFile o.text >>= _ : FileTree.Run Report).run made = _
    rw [StateT.run_bind, hwrite]
    cases made.write s.outputFile o.text.toUTF8 <;> rfl

/-- Either the source can be written, and then it is all that is put into files; or it cannot,
and then only directories are added. -/
theorem writeSource_cases (s : Settings) (o : Generation.Output) (t : FileTree) :
    (CanWrite t s o ∧ ∃ t', (writeSource s o : FileTree.Run Report).run t =
        (written s.outputFile o, t') ∧ t'.read s.outputFile = .ok o.text.toUTF8 ∧
        OnlyFileWritten s.outputFile t t') ∨
      (¬ CanWrite t s o ∧ ∃ reason t', (writeSource s o : FileTree.Run Report).run t =
        (.failed reason, t') ∧ OnlyDirectoriesAdded t t') := by
  have hadded := changes_createDirectories s.output.path t
  rw [writeSource_run]
  cases hmade : (FileAccess.createDirectories s.output.path : FileTree.Run _).run t with
  | mk outcome made =>
    rw [treeAfter, hmade] at hadded
    cases outcome with
    | error e =>
      refine .inr ⟨?_, _, made, rfl, hadded⟩
      rintro ⟨_, _, hok, -⟩
      rw [hmade] at hok
      cases hok
    | ok _ =>
      cases hwrite : made.write s.outputFile o.text.toUTF8 with
      | error e =>
        refine .inr ⟨?_, _, made, by simp only [hwrite]; rfl, hadded⟩
        rintro ⟨_, t', hok, hwritten⟩
        rw [hmade] at hok
        cases hok
        rw [hwrite] at hwritten
        cases hwritten
      | ok t' =>
        exact .inl ⟨⟨made, t', hmade, hwrite⟩, t', by simp only [hwrite], read_write hwrite,
          onlyFileWritten_of_write hadded hwrite⟩

/-! ### What a run prepares -/

section

variable [Layer.Formats] (world : Surroundings) (g : Given) (t : FileTree)

/-- The settings of a run on a tree. -/
def settingsIn : Except SettingsFault Settings := answer (effectiveSettings world g) t

/-- The contents of the responses that settings name in a tree. -/
def snapshotIn (s : Settings) : Except Failure Response.Snapshot :=
  answer (Response.fetch s.input.schemas s.input.customAttributes) t

/-- A run has no source to deliver. -/
inductive Sourceless : Prop where
  /-- The settings cannot be had. -/
  | settings {fault : SettingsFault} (h : settingsIn world g t = .error fault)
  /-- The responses cannot be had. -/
  | responses {s : Settings} {failure : Failure} (hs : settingsIn world g t = .ok s)
    (h : snapshotIn t s = .error failure)
  /-- Generation fails. -/
  | generation {s : Settings} {snapshot : Response.Snapshot} {failure : Failure}
    (hs : settingsIn world g t = .ok s) (hsnapshot : snapshotIn t s = .ok snapshot)
    (h : generate (s.options world.now) snapshot.schemas snapshot.configurations = .error failure)
  /-- There are no schemas. -/
  | noSchemas {s : Settings} {snapshot : Response.Snapshot} (hs : settingsIn world g t = .ok s)
    (hsnapshot : snapshotIn t s = .ok snapshot) (h : snapshot.schemas = [])

/-- A run has generated a source from schemas, for the given settings and responses. -/
structure Prepared (s : Settings) (snapshot : Response.Snapshot) (o : Generation.Output) :
    Prop where
  /-- The settings are those of the run. -/
  settings : settingsIn world g t = .ok s
  /-- The responses are those that the settings name. -/
  responses : snapshotIn t s = .ok snapshot
  /-- There are schemas. -/
  schemas_ne_nil : snapshot.schemas ≠ []
  /-- The source is generated from them. -/
  generated : generate (s.options world.now) snapshot.schemas snapshot.configurations = .ok o

end

section

variable [Layer.Formats] {world : Surroundings} {g : Given} {t : FileTree} {s : Settings}
  {snapshot : Response.Snapshot} {o : Generation.Output}

/-- A run has no source, or has prepared one. -/
theorem sourceless_or_prepared (world : Surroundings) (g : Given) (t : FileTree) :
    Sourceless world g t ∨ ∃ s snapshot o, Prepared world g t s snapshot o := by
  cases hs : settingsIn world g t with
  | error fault => exact .inl (.settings hs)
  | ok s =>
    cases hsnapshot : snapshotIn t s with
    | error failure => exact .inl (.responses hs hsnapshot)
    | ok snapshot =>
      cases ho : generate (s.options world.now) snapshot.schemas snapshot.configurations with
      | error failure => exact .inl (.generation hs hsnapshot ho)
      | ok o =>
        by_cases hne : snapshot.schemas = []
        · exact .inl (.noSchemas hs hsnapshot hne)
        · exact .inr ⟨s, snapshot, o, hs, hsnapshot, hne, ho⟩

/-- A run goes on from its settings on the same tree. -/
theorem runGiven_run (world : Surroundings) (g : Given) (t : FileTree) :
    (runGiven world g : FileTree.Run Report).run t =
      match settingsIn world g t with
      | .error fault => (.failed ("failed to load configuration: " ++ fault.message), t)
      | .ok s =>
        match snapshotIn t s with
        | .error failure => (.failed ("failed to load catalogs: " ++ failure.chain), t)
        | .ok snapshot =>
          match generate (s.options world.now) snapshot.schemas snapshot.configurations with
          | .error failure => (.failed ("generation aborted: " ++ failure.chain), t)
          | .ok o => (deliver g s o : FileTree.Run Report).run t := by
  rw [runGiven, (readsOnly_effectiveSettings world g).run_bind, ← settingsIn]
  cases settingsIn world g t with
  | error fault => rfl
  | ok s =>
    dsimp only
    rw [(Response.readsOnly_fetch _ _).run_bind, ← snapshotIn]
    cases snapshotIn t s with
    | error failure => rfl
    | ok snapshot =>
      dsimp only
      cases generate (s.options world.now) snapshot.schemas snapshot.configurations <;> rfl

/-- A run without a source fails and changes nothing. -/
theorem runGiven_of_sourceless (h : Sourceless world g t) :
    ∃ errors, (runGiven world g : FileTree.Run Report).run t = (⟨1, "", errors⟩, t) := by
  rw [runGiven_run]
  cases h with
  | settings h => exact ⟨_, by rw [h]; rfl⟩
  | responses hs h => exact ⟨_, by simp only [hs, h]; rfl⟩
  | generation hs hsnapshot h => exact ⟨_, by simp only [hs, hsnapshot, h]; rfl⟩
  | noSchemas hs hsnapshot h =>
    simp only [hs, hsnapshot, h, Generation.generate_nil]
    exact ⟨_, rfl⟩

/-! ### The whole run -/

/-- A run that has prepared a source prints it if that is asked for, and else writes it if it
can, whatever problems there are. -/
theorem runGiven_cases (h : Prepared world g t s snapshot o) :
    (g.has "stdout" = true ∧ (runGiven world g : FileTree.Run Report).run t = (printed o, t)) ∨
      (g.has "stdout" = false ∧ CanWrite t s o ∧ ∃ t',
        (runGiven world g : FileTree.Run Report).run t = (written s.outputFile o, t') ∧
        t'.read s.outputFile = .ok o.text.toUTF8 ∧ OnlyFileWritten s.outputFile t t') ∨
      (g.has "stdout" = false ∧ ¬ CanWrite t s o ∧ ∃ reason t',
        (runGiven world g : FileTree.Run Report).run t = (.failed reason, t') ∧
        OnlyDirectoriesAdded t t') := by
  have herrors : o.diagnostics.hasErrors = false := by
    rw [Bool.eq_false_iff]
    exact fun herr => h.schemas_ne_nil ((Generation.hasErrors_iff h.generated).1 herr)
  have hrun : (runGiven world g : FileTree.Run Report).run t =
      (deliver g s o : FileTree.Run Report).run t := by
    rw [runGiven_run, h.settings]
    simp only [h.responses, h.generated]
  rw [hrun, deliver, herrors]
  cases g.has "stdout" with
  | true => exact .inl ⟨rfl, rfl⟩
  | false =>
    rcases writeSource_cases s o t with ⟨hcan, hwritten⟩ | ⟨hcannot, hfailed⟩
    · exact .inr (.inl ⟨rfl, hcan, hwritten⟩)
    · exact .inr (.inr ⟨rfl, hcannot, hfailed⟩)

/-- **What a run leaves.** Of a run of the command with arguments that can be read:
if it has no source to deliver, it ends with status 1, prints nothing and changes nothing;
if it ends with status 0, it has prepared a source, which is printed, and nothing is changed, if
that is asked for, and otherwise is in the file that the settings name, and no other file is
changed; if it has prepared a source, it ends with status 0 exactly if the source is printed or
can be written, whatever problems are reported; and if it does not end with status 0, it ends with
status 1, prints nothing and changes no file. -/
theorem outcome_of_run {arguments : List String} (hg : read grammar arguments = .ok g)
    (world : Surroundings) (t : FileTree) :
    let report := (run world arguments : FileTree.Run Report).answer t
    let after := (run world arguments : FileTree.Run Report).treeAfter t
    (Sourceless world g t → report.exitCode = 1 ∧ report.output = "" ∧ after = t) ∧
    (report.exitCode = 0 → ∃ s snapshot o, Prepared world g t s snapshot o ∧
      if g.has "stdout" then report.output = o.text ∧ after = t
      else report.output = "" ∧ after.read s.outputFile = .ok o.text.toUTF8 ∧
        OnlyFileWritten s.outputFile t after) ∧
    (∀ s snapshot o, Prepared world g t s snapshot o →
      (report.exitCode = 0 ↔ g.has "stdout" = true ∨ CanWrite t s o)) ∧
    (report.exitCode ≠ 0 →
      report.exitCode = 1 ∧ report.output = "" ∧ OnlyDirectoriesAdded t after) := by
  intro report after
  have hrun {r : Report} {t' : FileTree}
      (h : (runGiven world g : FileTree.Run Report).run t = (r, t')) : report = r ∧ after = t' := by
    have hsame : (report, after) = (r, t') := by
      rw [← h]
      show (run world arguments : FileTree.Run Report).run t = _
      rw [run, hg]
    exact Prod.mk.inj hsame
  refine ⟨fun hnone => ?_, fun hzero => ?_, fun s snapshot o hprepared => ?_, fun hfailed => ?_⟩
  · obtain ⟨errors, h⟩ := runGiven_of_sourceless hnone
    obtain ⟨hreport, hafter⟩ := hrun h
    exact ⟨hreport ▸ rfl, hreport ▸ rfl, hafter⟩
  · rcases sourceless_or_prepared world g t with hnone | ⟨s, snapshot, o, hprepared⟩
    · obtain ⟨errors, h⟩ := runGiven_of_sourceless hnone
      rw [(hrun h).1] at hzero
      cases hzero
    · refine ⟨s, snapshot, o, hprepared, ?_⟩
      rcases runGiven_cases hprepared with ⟨hout, h⟩ | ⟨hout, -, t', h, hread, hfile⟩ |
        ⟨-, -, reason, t', h, -⟩
      · obtain ⟨hreport, hafter⟩ := hrun h
        rw [if_pos hout]
        exact ⟨hreport ▸ rfl, hafter⟩
      · obtain ⟨hreport, hafter⟩ := hrun h
        rw [if_neg (by simp [hout]), hafter]
        exact ⟨hreport ▸ rfl, hread, hfile⟩
      · rw [(hrun h).1] at hzero
        cases hzero
  · rcases runGiven_cases hprepared with ⟨hout, h⟩ | ⟨hout, hcan, t', h, -⟩ |
      ⟨hout, hcannot, reason, t', h, -⟩
    · rw [(hrun h).1]
      exact ⟨fun _ => .inl hout, fun _ => rfl⟩
    · rw [(hrun h).1]
      exact ⟨fun _ => .inr hcan, fun _ => rfl⟩
    · rw [(hrun h).1]
      simp [Report.failed, hout, hcannot]
  · rcases sourceless_or_prepared world g t with hnone | ⟨s, snapshot, o, hprepared⟩
    · obtain ⟨errors, h⟩ := runGiven_of_sourceless hnone
      obtain ⟨hreport, hafter⟩ := hrun h
      exact ⟨hreport ▸ rfl, hreport ▸ rfl, hafter ▸ .refl t⟩
    · rcases runGiven_cases hprepared with ⟨-, h⟩ | ⟨-, -, t', h, -⟩ |
        ⟨-, -, reason, t', h, hadded⟩
      · exact absurd (by rw [(hrun h).1]; rfl) hfailed
      · exact absurd (by rw [(hrun h).1]; rfl) hfailed
      · obtain ⟨hreport, hafter⟩ := hrun h
        exact ⟨hreport ▸ rfl, hreport ▸ rfl, hafter ▸ hadded⟩

end

/-- A world without settings in the environment. -/
def stillWorld : Surroundings := ⟨none, [], ⟨0, 0⟩⟩

/-- A file with one schema, whose property has no type. -/
def untypedTree : FileTree :=
  ⟨[(["s.json"],
    .file "[\x7b\"id\":\"Shot\",\"properties\":\x7b\"note\":\x7b\x7d\x7d\x7d]".toUTF8)], []⟩

/-- The untyped property is reported, the source is written, and the run ends with status 0; where
there is no file with schemas, the run ends with status 1 and changes nothing. -/
theorem outcome_of_untypedTree :
    let run := (run stillWorld ["-s", "s.json", "--no-timestamp"] : FileTree.Run Report)
    let path := "__generated__/schema.ts"
    (run.answer untypedTree = ⟨0, "", "📝 Wrote __generated__/schema.ts\n✅ Generated 1 schemas\n" ++
      "⚠️  1 error(s):\n   - No type or $ref defined for property note in schema Shot\n"⟩ ∧
    ∃ o : Generation.Output, (run.treeAfter untypedTree).read path = .ok o.text.toUTF8 ∧
      OnlyFileWritten path untypedTree (run.treeAfter untypedTree)) ∧
    (run.answer .empty).exitCode = 1 ∧ run.treeAfter .empty = .empty := by
  intro run path
  have hg : read grammar ["-s", "s.json", "--no-timestamp"] =
      .ok ⟨[("schemas", "s.json"), ("no-timestamp", "")], [], none⟩ := rfl
  constructor
  · have hreport : run.answer untypedTree =
        ⟨0, "", "📝 Wrote __generated__/schema.ts\n✅ Generated 1 schemas\n" ++
          "⚠️  1 error(s):\n   - No type or $ref defined for property note in schema Shot\n"⟩ := by
      decide +kernel
    have hpath : (settingsIn stillWorld ⟨[("schemas", "s.json"), ("no-timestamp", "")], [], none⟩
        untypedTree).toOption.map Settings.outputFile = some path := by decide +kernel
    obtain ⟨-, hzero, -, -⟩ := outcome_of_run hg stillWorld untypedTree
    obtain ⟨s, snapshot, o, hprepared, -, hread, hfile⟩ := hzero (by rw [hreport])
    rw [hprepared.settings] at hpath
    have houtput : s.outputFile = path := Option.some.inj hpath
    rw [houtput] at hread hfile
    exact ⟨hreport, o, hread, hfile⟩
  · obtain ⟨hnone, -, -, -⟩ := outcome_of_run hg stillWorld .empty
    obtain ⟨hcode, -, hafter⟩ := hnone (.responses rfl rfl)
    exact ⟨hcode, hafter⟩

end EntityTypings.GenerateCommand
