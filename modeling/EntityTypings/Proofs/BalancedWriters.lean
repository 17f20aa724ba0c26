import EntityTypings.Emission

/-!
# Balanced writers

A source is written line by line, and in between the depth of indentation changes. Each writer of a
part of a source comes up again each level that it goes down. So it ends at the depth at which it
starts and is never above it, and `dedent`, which has no effect at the margin, is never used there.

That is about the operations that a writer uses, and the text does not show them: a line one level
deeper can also be written with spaces of its own. So writing is defined once more, for everything
that can be written to, a `Page`. An emission is a page, and on it this is the writing that there
is, by definition (`Writer.on_emission`). A list of calls is a page as well, which keeps what it is
told. A writer cannot look at its page. So it makes the same calls on every page, and they are the
ones that an empty list keeps (`Writer.on_eq_replay`).

How the levels of a text stand in each other is a relation between pages (`Page.Level`), and each
writer is shown to keep to it. On lists of calls the relation gives `Balanced`: what calls do to the
depth, and how they are made at a greater depth. With it the main statement, `writers_balanced`,
says what becomes of depth and text, and where `dedent` is used.
-/

namespace EntityTypings

/-- A line that stands deeper has more spaces before its text, if it has one. -/
theorem Line.render_indent (l : Line) (n : Nat) :
    (l.indent n).render =
      if l.text = "" then l.render
      else String.ofList (List.replicate (2 * n) ' ') ++ l.render := by
  by_cases ht : l.text = ""
  · simp [Line.indent, Line.render, ht]
  · have hspaces : List.replicate (2 * (l.depth + n)) ' ' =
        List.replicate (2 * n) ' ' ++ List.replicate (2 * l.depth) ' ' := by
      rw [List.replicate_append_replicate, Nat.mul_add, Nat.add_comm]
    simp only [Line.indent, Line.render, ht, if_false, hspaces, String.ofList_append,
      String.append_assoc]

namespace Emission

/-! ### Pages -/

/-- What can be written to. -/
class Page (σ : Type) where
  /-- Appends a line at the current depth. -/
  line : σ → String → σ
  /-- Goes one level deeper. -/
  indent : σ → σ
  /-- Goes one level less deep. -/
  dedent : σ → σ
  /-- Records problems. -/
  report : σ → List Diagnostic → σ

/-- An emission has these operations. -/
instance : Page Emission where
  line := line
  indent := indent
  dedent := dedent
  report e found := { e with diagnostics := e.diagnostics.append found }

/-- A depth is a page that does not keep what is written. -/
instance : Page Nat where
  line depth _ := depth
  indent depth := depth + 1
  dedent depth := depth - 1
  report depth _ := depth

namespace Page

variable {σ τ : Type} [Page σ] [Page τ]

/-- Appends a header with an opening brace and goes one level deeper. -/
def opening (p : σ) (header : String) : σ :=
  indent (line p (if header = "" then "\x7b" else header ++ " \x7b"))

/-- Goes one level less deep and appends a closing brace with a suffix. -/
def closing (p : σ) (suffix : String) : σ := line (dedent p) ("\x7d" ++ suffix)

/-- Appends lines in braces after a header. -/
def braced (p : σ) (header : String) (texts : List String) (suffix : String) : σ :=
  closing (texts.foldl line (opening p header)) suffix

/-- Appends comments and an empty line below them. -/
def comments (p : σ) (texts : List String) : σ := line (texts.foldl line p) ""

/-- Appends a configuration as an element of the table. -/
def row (p : σ) (a : AttributeConfiguration) : σ :=
  braced p "" ((Declaration.rowFields a).map Declaration.fieldText) ","

/-- Appends a declaration. -/
def declaration (p : σ) : Declaration → σ
  | .interface name parameters heritage members =>
    braced p (Declaration.interfaceHeader name parameters heritage) (members.map Member.text) ""
  | .typeAlias name parameters definition =>
    line p (Declaration.aliasText name parameters definition)
  | .attributeValue name members =>
    braced p (Declaration.attributeValueHeader name) (members.map Member.text) ";"
  | .configurationTable rows =>
    let p := indent (line (opening p Declaration.configurationTableHeader) "return [")
    closing (line (dedent (rows.foldl row p)) "] as const;") ""

/-- Appends declarations. -/
def declarations (p : σ) (ds : List Declaration) : σ := ds.foldl declaration p

/-- Appends the declaration of a schema, or says why it has none. -/
def schema (p : σ) (c : Catalog) (s : Schema) : σ × Except Failure Unit :=
  let d := c.declare s
  let p := report p d.diagnostics
  match d.declaration with
  | .ok declaration => (Page.declaration p declaration, .ok ())
  | .error failure => (p, .error failure)

/-! ### Maps between pages -/

/-- It is the same whether one writes and then takes the map, or takes the map and then writes. -/
structure Hom (f : σ → τ) : Prop where
  /-- A line. -/
  line : ∀ p text, f (Page.line p text) = Page.line (f p) text
  /-- One level deeper. -/
  indent : ∀ p, f (Page.indent p) = Page.indent (f p)
  /-- One level less deep. -/
  dedent : ∀ p, f (Page.dedent p) = Page.dedent (f p)
  /-- Problems. -/
  report : ∀ p found, f (Page.report p found) = Page.report (f p) found

namespace Hom

variable {f : σ → τ}

theorem lines (h : Hom f) (texts : List String) (p : σ) :
    f (texts.foldl Page.line p) = texts.foldl Page.line (f p) :=
  (List.foldl_hom f fun p text => (h.line p text).symm).symm

theorem comments (h : Hom f) (p : σ) (texts : List String) :
    f (Page.comments p texts) = Page.comments (f p) texts := by
  simp only [Page.comments, h.line, h.lines]

theorem braced (h : Hom f) (p : σ) (header : String) (texts : List String) (suffix : String) :
    f (Page.braced p header texts suffix) = Page.braced (f p) header texts suffix := by
  simp only [Page.braced, closing, opening, h.line, h.indent, h.dedent, h.lines]

theorem rows (h : Hom f) (as : List AttributeConfiguration) (p : σ) :
    f (as.foldl row p) = as.foldl row (f p) :=
  (List.foldl_hom f fun _ _ => (h.braced ..).symm).symm

theorem declaration (h : Hom f) (p : σ) (d : Declaration) :
    f (Page.declaration p d) = Page.declaration (f p) d := by
  cases d with
  | interface name parameters heritage members => exact h.braced ..
  | typeAlias name parameters definition => exact h.line ..
  | attributeValue name members => exact h.braced ..
  | configurationTable rows =>
    simp only [Page.declaration, closing, opening, h.line, h.indent, h.dedent, h.rows]

theorem declarations (h : Hom f) (p : σ) (ds : List Declaration) :
    f (Page.declarations p ds) = Page.declarations (f p) ds :=
  (List.foldl_hom f fun p d => (h.declaration p d).symm).symm

theorem schema (h : Hom f) (p : σ) (c : Catalog) (s : Schema) :
    f (Page.schema p c s).1 = (Page.schema (f p) c s).1 := by
  simp only [Page.schema]
  cases (c.declare s).declaration with
  | ok d => simp only [h.declaration, h.report]
  | error failure => exact h.report ..

end Hom

/-! ### Levels -/

/-- From the first page one comes to the second by writing that comes up again each level that it
goes down. -/
inductive Level : σ → σ → Prop where
  /-- Nothing. -/
  | refl (p : σ) : Level p p
  /-- A line. -/
  | line {p q : σ} (h : Level p q) (text : String) : Level p (Page.line q text)
  /-- Problems. -/
  | report {p q : σ} (h : Level p q) (found : List Diagnostic) : Level p (Page.report q found)
  /-- Such writing one level deeper. -/
  | nested {p q r : σ} (h : Level p q) (inner : Level (Page.indent q) r) : Level p (Page.dedent r)

namespace Level

theorem trans {p q r : σ} (h : Level p q) (h' : Level q r) : Level p r := by
  induction h' with
  | refl => exact h
  | line _ text ih => exact (ih h).line text
  | report _ found ih => exact (ih h).report found
  | nested _ inner ih _ => exact (ih h).nested inner

/-- Writing for each of some values stays on the level if writing for one does. -/
theorem foldl {α : Type} {write : σ → α → σ} (h : ∀ p a, Level p (write p a)) (values : List α)
    (p : σ) : Level p (values.foldl write p) := by
  induction values generalizing p with
  | nil => exact .refl p
  | cons a rest ih => exact (h p a).trans (ih _)

theorem lines (texts : List String) (p : σ) : Level p (texts.foldl Page.line p) :=
  foldl (fun p => (refl p).line) texts p

theorem comments (p : σ) (texts : List String) : Level p (Page.comments p texts) :=
  (lines texts p).line _

theorem braced (p : σ) (header : String) (texts : List String) (suffix : String) :
    Level p (Page.braced p header texts suffix) :=
  (((refl p).line _).nested (lines texts _)).line _

theorem declaration (p : σ) (d : Declaration) : Level p (Page.declaration p d) := by
  cases d with
  | interface name parameters heritage members => exact braced ..
  | typeAlias name parameters definition => exact (refl p).line _
  | attributeValue name members => exact braced ..
  | configurationTable rows =>
    have hrows (q : σ) : Level q (rows.foldl row q) := foldl (fun q _ => braced q ..) rows q
    -- The rows stand two levels deep: in the brackets that stand in the braces.
    have hbrackets (q : σ) : Level q
        (Page.line (dedent (rows.foldl row (indent (Page.line q "return [")))) "] as const;") :=
      (((refl q).line _).nested (hrows _)).line _
    exact (((refl p).line _).nested (hbrackets _)).line _

theorem declarations (p : σ) (ds : List Declaration) : Level p (Page.declarations p ds) :=
  foldl declaration ds p

theorem schema (p : σ) (c : Catalog) (s : Schema) : Level p (Page.schema p c s).1 := by
  have hreport := (refl p).report (c.declare s).diagnostics
  simp only [Page.schema]
  cases (c.declare s).declaration with
  | ok d => exact hreport.trans (declaration _ d)
  | error failure => exact hreport

end Level

end Page

/-! ### Calls -/

/-- What a page can be told. -/
inductive Call where
  /-- To append a line. -/
  | line (text : String)
  /-- To go one level deeper. -/
  | indent
  /-- To go one level less deep. -/
  | dedent
  /-- To record problems. -/
  | report (found : List Diagnostic)

/-- A list of calls is a page that keeps what it is told. -/
instance : Page (List Call) where
  line calls text := calls ++ [.line text]
  indent calls := calls ++ [.indent]
  dedent calls := calls ++ [.dedent]
  report calls found := calls ++ [.report found]

section Replay

variable {σ τ : Type} [Page σ] [Page τ]

/-- Makes a call. -/
def Call.make (p : σ) : Call → σ
  | line text => Page.line p text
  | indent => Page.indent p
  | dedent => Page.dedent p
  | report found => Page.report p found

/-- Makes calls, one after the other. -/
def replay (p : σ) (calls : List Call) : σ := calls.foldl Call.make p

/-- Calls, each with the page on which it is made. -/
def visits (p : σ) : List Call → List (σ × Call)
  | [] => []
  | call :: rest => (p, call) :: visits (call.make p) rest

theorem replay_append (p : σ) (as bs : List Call) :
    replay p (as ++ bs) = replay (replay p as) bs :=
  List.foldl_append

theorem visits_append (p : σ) (as bs : List Call) :
    visits p (as ++ bs) = visits p as ++ visits (replay p as) bs := by
  induction as generalizing p with
  | nil => rfl
  | cons call rest ih => exact congrArg (_ :: ·) (ih _)

/-- One can write to calls and replay them, or replay them and write to the page. -/
theorem hom_replay (p : σ) : Page.Hom (replay p) where
  line calls _ := replay_append p calls _
  indent calls := replay_append p calls _
  dedent calls := replay_append p calls _
  report calls _ := replay_append p calls _

namespace Page.Hom

variable {f : σ → τ}

theorem make (h : Hom f) (p : σ) (call : Call) : f (call.make p) = call.make (f p) := by
  cases call with
  | line text => exact h.line p text
  | indent => exact h.indent p
  | dedent => exact h.dedent p
  | report found => exact h.report p found

theorem replay (h : Hom f) (p : σ) (calls : List Call) :
    f (Emission.replay p calls) = Emission.replay (f p) calls :=
  (List.foldl_hom f fun p call => (h.make p call).symm).symm

theorem visits (h : Hom f) (p : σ) (calls : List Call) :
    (Emission.visits p calls).map (Prod.map f id) = Emission.visits (f p) calls := by
  induction calls generalizing p with
  | nil => rfl
  | cons call rest ih => simp only [Emission.visits, List.map_cons, ih, h.make, Prod.map, id]

end Page.Hom

end Replay

/-- What becomes of the depth of an emission does not depend on the rest of it. -/
theorem hom_depth : Page.Hom depth := ⟨fun _ _ => rfl, fun _ => rfl, fun _ => rfl, fun _ _ => rfl⟩

/-- The line that a call appends at a depth, if it appends one. -/
def lineAt? : Nat × Call → Option Line
  | (depth, .line text) => some ⟨depth, text⟩
  | (_, .indent) | (_, .dedent) | (_, .report _) => none

/-- The lines that calls append from a depth on. -/
def written (depth : Nat) (calls : List Call) : List Line := (visits depth calls).filterMap lineAt?

theorem code_line (e : Emission) (text : String) :
    (e.line text).code = e.code ++ (⟨e.depth, text⟩ : Line).render := by
  simp [line, renderLines, Line.indent]

theorem code_replay (e : Emission) (calls : List Call) :
    (replay e calls).code = e.code ++ String.join ((written e.depth calls).map Line.render) := by
  -- The calls that are left may start at another depth, so `e` is any.
  induction calls generalizing e with
  | nil => simp [replay, written, visits]
  | cons call rest ih =>
    refine (ih (call.make e)).trans ?_
    cases call with
    | line text =>
      have hwritten : written e.depth (.line text :: rest) =
        ⟨e.depth, text⟩ :: written e.depth rest := rfl
      rw [hwritten, List.map_cons, String.join_cons, ← String.append_assoc, ← code_line]
      rfl
    | _ => rfl

/-! ### Balance -/

/-- Calls that come up again each level that they go down. -/
structure Balanced (calls : List Call) : Prop where
  /-- They end at the depth at which they start. -/
  depth : ∀ n : Nat, replay n calls = n
  /-- They go up only from below that depth. -/
  below : ∀ n k : Nat, (k, Call.dedent) ∈ visits n calls → n < k
  /-- From a greater depth they are made in the same way, each as much deeper. -/
  deeper : ∀ m n : Nat, visits (m + n) calls = (visits m calls).map (Prod.map (· + n) id)

namespace Balanced

variable {calls as bs : List Call}

theorem nil : Balanced [] := ⟨fun _ => rfl, by simp [visits], fun _ _ => rfl⟩

theorem line (text : String) : Balanced [.line text] :=
  ⟨fun _ => rfl, by simp [visits], fun _ _ => rfl⟩

theorem report (found : List Diagnostic) : Balanced [.report found] :=
  ⟨fun _ => rfl, by simp [visits], fun _ _ => rfl⟩

theorem append (ha : Balanced as) (hb : Balanced bs) : Balanced (as ++ bs) where
  depth n := by rw [replay_append, ha.depth, hb.depth]
  below n k h := by
    rw [visits_append, ha.depth] at h
    exact (List.mem_append.1 h).elim (ha.below n k) (hb.below n k)
  deeper m n := by simp only [visits_append, ha.depth, ha.deeper, hb.deeper, List.map_append]

/-- One level deeper, calls end there, and so the call to go up is made from there. -/
theorem visits_nested (h : Balanced calls) (n : Nat) :
    visits n (.indent :: calls ++ [.dedent]) =
      (n, .indent) :: visits (n + 1) calls ++ [(n + 1, .dedent)] := by
  have hinner : visits (n + 1) (calls ++ [.dedent]) =
      visits (n + 1) calls ++ [(n + 1, .dedent)] := by
    rw [visits_append, h.depth]
    rfl
  exact congrArg (_ :: ·) hinner

theorem nested (h : Balanced calls) : Balanced (.indent :: calls ++ [.dedent]) where
  depth n := by
    rw [replay_append]
    exact congrArg (· - 1) (h.depth (n + 1))
  below n k hk := by
    rw [h.visits_nested] at hk
    rcases List.mem_append.1 hk with hfront | hlast
    · rcases List.mem_cons.1 hfront with hfirst | hinner
      · cases hfirst
      · have := h.below (n + 1) k hinner
        omega
    · obtain ⟨rfl, -⟩ := Prod.mk.inj (List.mem_singleton.1 hlast)
      omega
  deeper m n := by
    simp only [h.visits_nested, Nat.add_right_comm m n, h.deeper, List.map_append, List.map_cons]
    rfl

/-- From a greater depth, the same lines are written, each as much deeper. -/
theorem written_add (h : Balanced calls) (m n : Nat) :
    written (m + n) calls = (written m calls).map (Line.indent n) := by
  have hline : lineAt? ∘ Prod.map (· + n) id = fun v => (lineAt? v).map (Line.indent n) := by
    funext ⟨k, call⟩
    cases call <;> rfl
  rw [written, h.deeper, List.filterMap_map, hline, written, List.map_filterMap]

end Balanced

/-- What is added to calls on one level is balanced. -/
theorem Page.Level.exists_balanced {calls calls' : List Call} (h : Page.Level calls calls') :
    ∃ more, Balanced more ∧ calls' = calls ++ more := by
  -- By how the levels stand in each other: what is nested is balanced one level deeper.
  induction h with
  | refl => exact ⟨[], .nil, (List.append_nil _).symm⟩
  | line _ text ih =>
    obtain ⟨more, hmore, rfl⟩ := ih
    exact ⟨_, hmore.append (.line text), List.append_assoc ..⟩
  | report _ found ih =>
    obtain ⟨more, hmore, rfl⟩ := ih
    exact ⟨_, hmore.append (.report found), List.append_assoc ..⟩
  | nested _ _ ih ih' =>
    obtain ⟨as, has, rfl⟩ := ih
    obtain ⟨bs, hbs, rfl⟩ := ih'
    exact ⟨_, has.append hbs.nested, by simp [Page.dedent, Page.indent]⟩

/-! ### Writers -/

/-- The declarations for custom attributes, with their types given. -/
def attributesOf (configurations : List AttributeConfiguration) (types : AttributeTypes)
    (schemas : List Schema) : List Declaration :=
  .configurationTable configurations :: Declaration.rowTypes
    ++ types.keys.filterMap (Declaration.valueRecord types)
    ++ [Declaration.attributeMap types schemas]

/-- In a run the types are those that are derived from the configurations. -/
example (configurations : List AttributeConfiguration) (schemas : List Schema) :
    attributesOf configurations (.derive configurations) schemas =
      Declaration.attributes configurations schemas := rfl

/-- A writer of a part of a source. -/
inductive Writer where
  /-- The preamble. -/
  | preamble (generatedAt : Option Timestamp) (serverVersion serverUrl : Option String)
  /-- The declaration of a schema, if it has one. -/
  | schema (c : Catalog) (s : Schema)
  /-- The record of which links are lists. -/
  | basicLink
  /-- The lookup of all schemas. -/
  | entityMap (ids : List String)
  /-- The lookup of the context family. -/
  | subtypeMap (ids : List String)
  /-- The declarations for custom attributes. -/
  | attributes (configurations : List AttributeConfiguration) (types : AttributeTypes)
    (schemas : List Schema)

namespace Writer

/-- Writes to an emission. -/
def write (e : Emission) : Writer → Emission × Except Failure Unit
  | preamble generatedAt serverVersion serverUrl =>
    (e.comments (EntityTypings.preamble generatedAt serverVersion serverUrl), .ok ())
  | schema c s => e.schema c s
  | basicLink => (e.declarations [.basicLink], .ok ())
  | entityMap ids => (e.declarations (Declaration.entityMap ids), .ok ())
  | subtypeMap ids => (e.declarations (Declaration.subtypeMap ids), .ok ())
  | attributes configurations types schemas =>
    (e.declarations (attributesOf configurations types schemas), .ok ())

section On

variable {σ τ : Type} [Page σ] [Page τ]

/-- Writes to a page. -/
def on (p : σ) : Writer → σ × Except Failure Unit
  | preamble generatedAt serverVersion serverUrl =>
    (Page.comments p (EntityTypings.preamble generatedAt serverVersion serverUrl), .ok ())
  | schema c s => Page.schema p c s
  | basicLink => (Page.declarations p [.basicLink], .ok ())
  | entityMap ids => (Page.declarations p (Declaration.entityMap ids), .ok ())
  | subtypeMap ids => (Page.declarations p (Declaration.subtypeMap ids), .ok ())
  | attributes configurations types schemas =>
    (Page.declarations p (attributesOf configurations types schemas), .ok ())

/-- The calls that a writer makes. -/
def calls (w : Writer) : List Call := (w.on ([] : List Call)).1

/-- On an emission, each operation is the one of the emission. -/
theorem on_emission (w : Writer) (e : Emission) : w.on e = w.write e := rfl

theorem on_hom {f : σ → τ} (h : Page.Hom f) (w : Writer) (p : σ) :
    f (w.on p).1 = (w.on (f p)).1 := by
  cases w with
  | preamble generatedAt serverVersion serverUrl => exact h.comments ..
  | schema c s => exact h.schema ..
  | basicLink | entityMap ids | subtypeMap ids | attributes configurations types schemas =>
    exact h.declarations ..

/-- **A writer makes the same calls on every page.** -/
theorem on_eq_replay (w : Writer) (p : σ) : (w.on p).1 = replay p w.calls :=
  (w.on_hom (hom_replay p) []).symm

theorem level_on (w : Writer) (p : σ) : Page.Level p (w.on p).1 := by
  cases w with
  | preamble generatedAt serverVersion serverUrl => exact .comments ..
  | schema c s => exact .schema ..
  | basicLink | entityMap ids | subtypeMap ids | attributes configurations types schemas =>
    exact .declarations ..

end On

theorem balanced_calls (w : Writer) : Balanced w.calls := by
  obtain ⟨more, hmore, hcalls⟩ := (w.level_on ([] : List Call)).exists_balanced
  rw [calls, hcalls]
  exact hmore

end Writer

end Emission

open Emission

/-- **Writers are balanced.** A writer makes the same calls on every page, and on an emission this
is the writing that there is. At every depth it only appends to the text, and it ends at that depth.
What it appends is what it appends at the margin, with two spaces for each level before the text of
every line that has one. And each time it goes up, it does so from below the depth at which it
started, so it never goes up from the margin. -/
theorem writers_balanced (w : Writer) (e : Emission) :
    let lines := written 0 w.calls
    (∀ (σ : Type) [Page σ] (p : σ), (w.on p).1 = replay p w.calls) ∧ w.on e = w.write e ∧
    (w.write { e with depth := 0 }).1.code = e.code ++ String.join (lines.map Line.render) ∧
    (w.write e).1.code = e.code ++ String.join (lines.map fun l =>
      if l.text = "" then l.render
      else String.ofList (List.replicate (2 * e.depth) ' ') ++ l.render) ∧
    (w.write e).1.depth = e.depth ∧
    ∀ e' : Emission, (e', Call.dedent) ∈ visits e w.calls → e.depth < e'.depth := by
  intro lines
  have hwrite (e : Emission) : (w.write e).1 = replay e w.calls := w.on_eq_replay e
  have hbalanced := w.balanced_calls
  refine ⟨fun σ _ p => w.on_eq_replay p, rfl, ?_, ?_, ?_, fun e' he' => ?_⟩
  · rw [hwrite, code_replay]
  · have hlines : written e.depth w.calls = lines.map (Line.indent e.depth) := by
      rw [← hbalanced.written_add, Nat.zero_add]
    rw [hwrite, code_replay, hlines, List.map_map]
    exact congrArg (fun texts => e.code ++ String.join texts)
      (List.map_congr_left fun l _ => l.render_indent e.depth)
  · rw [hwrite, hom_depth.replay, hbalanced.depth]
  · refine hbalanced.below e.depth e'.depth ?_
    rw [← hom_depth.visits]
    exact List.mem_map.2 ⟨_, he', rfl⟩

/-- The lookup of one schema, two levels deep: the member stands one level deeper, and from there it
goes up for the closing brace. -/
theorem writers_balanced_entityMap :
    let w := Writer.entityMap ["Shot"]
    let e : Emission := ⟨"// Types\n", 2, .empty⟩
    ∃ e' : Emission, (e', Call.dedent) ∈ visits e w.calls ∧ e.depth < e'.depth ∧
      e'.code = e.code ++ "    export interface EntityTypeMap \x7b\n      Shot: Shot;\n" ∧
      (w.write e).1.depth = 2 ∧
      (w.write e).1.code = e'.code ++ "    \x7d\n"
        ++ "    export type EntityType = keyof EntityTypeMap;\n"
        ++ "    export type EntityData<TEntityType extends EntityType = EntityType> = "
        ++ "EntityTypeMap[TEntityType];\n" := by
  intro w e
  obtain ⟨-, -, -, hcode, hdepth, hbelow⟩ := writers_balanced w e
  have hvisit : (replay e (w.calls.take 3), Call.dedent) ∈ visits e w.calls :=
    List.mem_of_getElem? (i := 3) rfl
  refine ⟨_, hvisit, hbelow _ hvisit, by decide +kernel, hdepth, ?_⟩
  rw [hcode]
  decide +kernel

end EntityTypings
