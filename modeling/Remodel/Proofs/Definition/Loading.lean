import Remodel.Definition.Reader
import Remodel.Proofs.Definition.Written
import Remodel.Proofs.Markup.Delivery
import Remodel.Proofs.Trace

/-!
# Reading definitions back

A document that writes expressible descriptions is read as these descriptions (`read_written`).

## Strategy

`Reads` says where a text takes a reader, wherever the text stands.  Between the parts of a document
a reader is in one of three states, in each of which everything is empty that is collected later:
`between` descriptions, `inside` a description between its steps, and `collecting` what belongs to a
step.  There is one lemma for each kind of element, which says from which state to which it leads,
and `Leads` puts several elements with blanks around them together.
-/

namespace Remodel.Definition

open Markup

namespace Reader

variable {types : TypeTable}

/-! ## Texts and readers -/

/-- Whether a text takes a reader to another one, if what follows the text is as required. -/
def Reads (types : TypeTable) (next : List Char → Prop) (text : List Char)
    (before after : Reader) : Prop :=
  ∃ events, Delivers next text events ∧ (before.takeAll types events).result = .ok after

theorem result_takeAll_append (reader : Reader) (events others : List Event) :
    (reader.takeAll types (events ++ others)).result =
      (reader.takeAll types events).result >>= fun next => (next.takeAll types others).result := by
  induction events generalizing reader with
  | nil => rfl
  | cons event rest ih =>
      simp only [List.cons_append, takeAll, Attempt.result_bind, ih]
      cases (reader.take types event).result <;> rfl

section Reads

variable {next follow : List Char → Prop} {text more : List Char} {before middle after : Reader}

theorem Reads.append (h : Reads types next text before middle)
    (hmore : Reads types follow more middle after)
    (hnext : ∀ rest, follow rest → next (more ++ rest)) :
    Reads types follow (text ++ more) before after := by
  obtain ⟨events, hevents, hresult⟩ := h
  obtain ⟨others, hothers, hafter⟩ := hmore
  refine ⟨events ++ others, hevents.append hothers hnext, ?_⟩
  rw [result_takeAll_append, hresult]
  exact hafter

theorem Reads.eq_of_nil (h : Reads types AtTag [] before after) : before = after := by
  obtain ⟨events, hevents, hresult⟩ := h
  rw [hevents.eq_nil] at hresult
  exact Except.ok.inj hresult

theorem text_empty (reader : Reader) : reader.text "" = reader := by
  unfold Reader.text
  split
  · simp
  · rfl

theorem reads_escaped {content : List Char} (h : Escaped text content) :
    Reads types AtTag text before (before.text (String.ofList content)) := by
  by_cases hne : text = []
  · subst hne
    cases h
    refine ⟨[], delivers_nil, ?_⟩
    rw [String.ofList_nil, text_empty]
    rfl
  · exact ⟨_, delivers_escaped h hne, rfl⟩

theorem reads_blank {s : List Char} (hs : Blank s) (hcapture : before.capture = none) :
    Reads types AtTag s before before := by
  have hreads : Reads types AtTag s before (before.text (String.ofList s)) :=
    reads_escaped (escaped_of_blank hs)
  have hignored : before.text (String.ofList s) = before := by
    rw [Reader.text, hcapture]
    rfl
  rwa [hignored] at hreads

/-- An element opens, its content is read, and it closes. -/
theorem reads_element (opened filled : Reader) {name : String}
    {attributes : List (String × String)} {Content : List Char → Prop} (hname : IsName name)
    (hopen : ∀ a, WritesAttributes attributes a →
      before.opening types ⟨name, String.ofList a⟩ = .ok opened)
    (hcontent : ∀ content, Content content → Reads types AtTag content opened filled)
    (hclose : (filled.closing name).result = .ok after)
    (h : WritesElement name attributes Content text) :
    Reads types Anything text before after := by
  cases h with
  | @paired a content s ha hinside hs =>
      obtain ⟨events, hevents, hresult⟩ := hcontent content hinside
      refine ⟨_, delivers_element hname ha hs hevents, ?_⟩
      simp only [takeAll, take, Attempt.result_bind, Attempt.result_except, hopen a ha, ok_bind,
        result_takeAll_append, hresult, hclose]
      rfl
  | @empty a ha hinside =>
      obtain rfl := (hcontent [] hinside).eq_of_nil
      refine ⟨_, delivers_emptyTag hname ha, ?_⟩
      simp only [takeAll, take, Attempt.result_bind, Attempt.result_except, hopen a ha, ok_bind,
        hclose]
      rfl

end Reads

/-! ## Several elements -/

/-- Whether elements of the given forms, one after another, take a reader to another one, which
collects no text before or after any of them. -/
inductive Leads (types : TypeTable) : List (List Char → Prop) → Reader → Reader → Prop
  | nil {reader : Reader} (hcapture : reader.capture = none) : Leads types [] reader reader
  | cons {Item : List Char → Prop} {items : List (List Char → Prop)}
      {before middle after : Reader} (hcapture : before.capture = none)
      (hitem : ∀ text, Item text → Reads types Anything text before middle)
      (h : Leads types items middle after) : Leads types (Item :: items) before after

section Leads

variable {items more : List (List Char → Prop)} {before middle after : Reader}

theorem Leads.capture_eq (h : Leads types items before after) : before.capture = none := by
  cases h with
  | nil hcapture => exact hcapture
  | cons hcapture => exact hcapture

theorem Leads.capture_eq_after (h : Leads types items before after) : after.capture = none := by
  induction h with
  | nil hcapture => exact hcapture
  | cons _ _ _ ih => exact ih

theorem Leads.append (h : Leads types items before middle) (hmore : Leads types more middle after) :
    Leads types (items ++ more) before after := by
  induction h with
  | nil => exact hmore
  | cons hcapture hitem _ ih => exact Leads.cons hcapture hitem (ih hmore)

theorem Leads.reads (h : Leads types items before after) {text : List Char}
    (hspaced : Spaced items text) : Reads types AtTag text before after := by
  induction h generalizing text with
  | nil hcapture =>
      cases hspaced with
      | nil hs => exact reads_blank hs hcapture
  | cons hcapture hitem _ ih =>
      cases hspaced with
      | cons hs hwritten hmore =>
          rw [List.append_assoc]
          refine (reads_blank hs hcapture).append ?_ (by simp [AtTag])
          exact (hitem _ hwritten).append (ih hmore) fun _ _ => trivial

/-- The elements of a group lead where they lead without it. -/
theorem Leads.grouped (h : Leads types items before after) {group : String}
    {parts : List (List Char → Prop)} (hname : IsName group)
    (hgroup : Element.named group = .group) (hparts : Grouped group items parts) :
    Leads types parts before after := by
  rcases hparts with rfl | rfl
  · exact h
  · have hopen : ∀ a, before.opening types ⟨group, a⟩ = .ok before := by
      intro a
      rw [opening, hgroup]
    have hclose : (after.closing group).result = .ok after := by
      rw [closing, hgroup]
      rfl
    refine Leads.cons h.capture_eq (fun text hwritten => ?_) (Leads.nil h.capture_eq_after)
    exact reads_element before after hname (fun a _ => hopen _) (fun _ => h.reads) hclose hwritten

end Leads

/-! ## The states between elements -/

/-- The reader between descriptions. -/
def between (finished : List Description) : Reader := { start with finished := finished }

/-- The reader between the steps of a description. -/
def inside (finished : List Description) (description : Description) : Reader :=
  { between finished with active := some description }

/-- The reader between the elements of a step. -/
def collecting (finished : List Description) (description : Description) (operation : Operation)
    (sources : List String) (target : Option String) (params : List (String × String)) : Reader :=
  { inside finished description with
    operation := some (operation.name, operation)
    sources := sources
    target := target
    params := params }

section States

variable {finished : List Description} {description : Description} {operation : Operation}
  {sources fields : List String} {target : Option String} {params : List (String × String)}

/-- The reader while it collects the text of an element. -/
def filling (reader : Reader) (capture : CaptureElement) (buffer : String) : Reader :=
  { reader with capture := some capture, buffer := buffer }

theorem reads_field (capture : CaptureElement) {element field : String} {before after : Reader}
    {text : List Char} (hname : IsName element)
    (helement : Element.named element = .capture capture)
    (hoperation : before.operation.isSome = true)
    (hafter : (before.filling capture field).closeCapture = after)
    (h : WritesField element field text) : Reads types Anything text before after := by
  refine reads_element (before.filling capture "") (before.filling capture field) hname ?_ ?_ ?_ h
  · intro a _
    rw [opening, helement]
    simp only [openCapture, hoperation, if_true]
    rfl
  · intro content hcontent
    have hreads : Reads types AtTag content (before.filling capture "")
        (before.filling capture ("" ++ String.ofList field.toList)) := reads_escaped hcontent
    rwa [String.ofList_toList, String.empty_append] at hreads
  · rw [closing, helement]
    exact congrArg Except.ok hafter

theorem leads_sources (sources : List String) (htrim : ∀ field ∈ fields, Text.trim field = field) :
    Leads types (fields.map (WritesField "source-field"))
      (collecting finished description operation sources target params)
      (collecting finished description operation (sources ++ fields) target params) := by
  induction fields generalizing sources with
  | nil =>
      rw [List.append_nil]
      exact Leads.nil rfl
  | cons field rest ih =>
      obtain ⟨hfield, hrest⟩ := List.forall_mem_cons.mp htrim
      have hnext := ih (sources ++ [field]) hrest
      rw [List.append_assoc, List.singleton_append] at hnext
      refine Leads.cons rfl (fun text hwritten => ?_) hnext
      refine reads_field .sourceField (by decide) (by decide) rfl ?_ hwritten
      change { collecting finished description operation sources target params with
        sources := sources ++ [Text.trim field] } = _
      rw [hfield]
      rfl

theorem leads_target {field : String} (htrim : Text.trim field = field) :
    Leads types [WritesField "target-field" field]
      (collecting finished description operation sources target params)
      (collecting finished description operation sources (some field) params) := by
  refine Leads.cons rfl (fun text hwritten => ?_) (Leads.nil rfl)
  refine reads_field .targetField (by decide) (by decide) rfl ?_ hwritten
  change { collecting finished description operation sources target params with
    target := some (Text.trim field) } = _
  rw [htrim]
  rfl

theorem reads_param {param : String × String} {text : List Char} (h : WritesParam param text) :
    Reads types Anything text
      (collecting finished description operation sources target params)
      (collecting finished description operation sources target
        (Table.insert param.1 param.2 params)) := by
  have helement : Element.named "param" = .param := by decide
  have hkey : (Table.ofList [("key", param.1), ("value", param.2)]).lookup "key" =
      some param.1 := by
    simp [Table.ofList, Table.lookup_insert]
  have hvalue : (Table.ofList [("key", param.1), ("value", param.2)]).lookup "value" =
      some param.2 := by
    simp [Table.ofList]
  have hopen : ∀ a, WritesAttributes [("key", param.1), ("value", param.2)] a →
      (collecting finished description operation sources target params).opening types
        ⟨"param", String.ofList a⟩ = .ok (collecting finished description operation sources target
          (Table.insert param.1 param.2 params)) := by
    intro a ha
    have hnames : ["key", "value"].Nodup := by decide
    have hgiven := attributes_of_written ha hnames
    rw [opening, helement]
    simp only [openParam, attributes, hgiven, mapError_ok, ok_bind, hkey, hvalue, orFault,
      Option.getD_some]
    rfl
  refine reads_element _ _ (by decide) hopen (fun content hblank => reads_blank hblank rfl) ?_ h
  rw [closing, helement]
  rfl

theorem leads_params (params given : List (String × String)) :
    Leads types (given.map WritesParam)
      (collecting finished description operation sources target params)
      (collecting finished description operation sources target
        (given.foldl (fun table entry => Table.insert entry.1 entry.2 table) params)) := by
  induction given generalizing params with
  | nil => exact Leads.nil rfl
  | cons param rest ih => exact Leads.cons rfl (fun _ hwritten => reads_param hwritten) (ih _)

theorem element_named_name (operation : Operation) :
    Element.named operation.name = .operation operation.name := by
  cases operation <;> decide

theorem isName_name (operation : Operation) : IsName operation.name := by
  cases operation <;> decide

theorem parse_name (operation : Operation) : Operation.parse operation.name = .ok operation := by
  cases operation <;> rfl

/-- What stands in the element of a step is collected. -/
theorem leads_parts {table given : List (String × String)} {field : String}
    {sourceParts paramParts : List (List Char → Prop)}
    (hfields : ∀ field ∈ fields, Text.trim field = field) (htrim : Text.trim field = field)
    (htable : Table.Ascending table) (hperm : given.Perm table)
    (hsources : Grouped "source-fields" (fields.map (WritesField "source-field")) sourceParts)
    (hparams : Grouped "params" (given.map WritesParam) paramParts) :
    Leads types (sourceParts ++ WritesField "target-field" field :: paramParts)
      (collecting finished description operation [] none [])
      (collecting finished description operation fields (some field) table) := by
  have hfirst : Leads types sourceParts
      (collecting finished description operation [] none [])
      (collecting finished description operation fields none []) :=
    (leads_sources [] hfields).grouped (by decide) (by decide) hsources
  have hlast : Leads types paramParts
      (collecting finished description operation fields (some field) [])
      (collecting finished description operation fields (some field) (Table.ofList given)) :=
    (leads_params [] given).grouped (by decide) (by decide) hparams
  rw [htable.ofList_eq hperm] at hlast
  exact hfirst.append ((leads_target htrim).append hlast)

theorem result_closeOperation {field : String}
    (hneeded : (operation.readsSource && sources.isEmpty) = false)
    (hfield : field.isEmpty = false) :
    (collecting finished description operation sources (some field) params).closeOperation.result =
      .ok (inside finished (description.addStep ⟨operation, sources, some field, params⟩)) := by
  simp only [closeOperation, collecting, hneeded, hfield, Bool.false_eq_true, if_false]
  rfl

/-- The element of a step adds the step to the description. -/
theorem reads_step {step : Step} (hstep : step.Expressible) {text : List Char}
    (h : WritesStep step text) :
    Reads types Anything text (inside finished description)
      (inside finished (description.addStep step)) := by
  obtain ⟨operation, sources, target?, table⟩ := step
  obtain ⟨target, htarget, hne, htrim⟩ := hstep.target
  obtain rfl : target? = some target := htarget
  refine reads_element (collecting finished description operation [] none [])
    (collecting finished description operation sources (some target) table)
    (isName_name operation) (fun a _ => ?_) ?_ ?_ h
  · rw [opening, element_named_name]
    simp only [openOperation, parse_name]
    rfl
  · rintro content ⟨written, given, sourceParts, paramParts, hwritten, hperm, hsources, hparams,
      hspaced⟩
    obtain rfl : target = written := Option.some.inj hwritten
    exact (leads_parts hstep.sources htrim hstep.params hperm hsources hparams).reads hspaced
  · have hneeded : (operation.readsSource && sources.isEmpty) = false := by
      cases hreads : operation.readsSource with
      | false => rfl
      | true => simpa using hstep.needed hreads
    have hfilled : target.isEmpty = false := by simpa using hne
    rw [closing, element_named_name]
    exact result_closeOperation hneeded hfilled

theorem leads_steps (description : Description) {steps : List Step}
    (hsteps : ∀ step ∈ steps, step.Expressible) :
    Leads types (steps.map WritesStep) (inside finished description)
      (inside finished { description with steps := description.steps ++ steps }) := by
  induction steps generalizing description with
  | nil =>
      rw [List.append_nil]
      exact Leads.nil rfl
  | cons step rest ih =>
      obtain ⟨hstep, hrest⟩ := List.forall_mem_cons.mp hsteps
      have hnext := ih (description.addStep step) hrest
      have hall : (description.addStep step).steps ++ rest = description.steps ++ step :: rest := by
        rw [Description.addStep, List.append_assoc, List.singleton_append]
      rw [hall] at hnext
      exact Leads.cons rfl (fun text hwritten => reads_step hstep hwritten) hnext

/-- The attributes of a description are found under their names. -/
theorem lookup_attributesOf (description : Description) :
    (Table.ofList (attributesOf description)).lookup "source" = some description.source ∧
      (Table.ofList (attributesOf description)).lookup "target" = some description.target ∧
      (Table.ofList (attributesOf description)).lookup "id" = description.id := by
  cases hid : description.id <;> simp [attributesOf, hid, Table.ofList, Table.lookup_insert]

theorem nodup_attributesOf (description : Description) :
    ((attributesOf description).map Prod.fst).Nodup := by
  cases hid : description.id <;> simp [attributesOf, hid]

/-- The element of a description adds the description. -/
theorem reads_description (hdescription : description.Expressible types) {text : List Char}
    (h : WritesDescription description text) :
    Reads types Anything text (between finished) (between (finished ++ [description])) := by
  obtain ⟨source, hsource, hsourceId⟩ := hdescription.source
  obtain ⟨target, htarget, htargetId⟩ := hdescription.target
  have helement : Element.named "transformation" = .transformation := by decide
  refine reads_element (inside finished { description with steps := [] })
    (inside finished description) (by decide) (fun a ha => ?_) (fun content hspaced => ?_) ?_ h
  · have hgiven := attributes_of_written ha (nodup_attributesOf description)
    obtain ⟨hsourceName, htargetName, hid⟩ := lookup_attributesOf description
    rw [opening, helement]
    simp only [openTransformation, attributes, hgiven, mapError_ok, ok_bind, hsourceName,
      htargetName, hid, orFault, hsource, htarget, hsourceId, htargetId]
    have hclosed : (between finished).active.isSome = false := rfl
    rw [hclosed, hdescription.fileName]
    rfl
  · exact (leads_steps { description with steps := [] } hdescription.steps).reads hspaced
  · rw [closing, helement]
    rfl

end States

theorem leads_descriptions {descriptions : List Description} (finished : List Description)
    (h : ∀ description ∈ descriptions, description.Expressible types) :
    Leads types (descriptions.map WritesDescription) (between finished)
      (between (finished ++ descriptions)) := by
  induction descriptions generalizing finished with
  | nil =>
      rw [List.append_nil]
      exact Leads.nil rfl
  | cons description rest ih =>
      obtain ⟨hdescription, hrest⟩ := List.forall_mem_cons.mp h
      have hnext := ih (finished ++ [description]) hrest
      rw [List.append_assoc, List.singleton_append] at hnext
      exact Leads.cons rfl (fun text hwritten => reads_description hdescription hwritten) hnext

end Reader

/-! ## Whole documents -/

variable {types : TypeTable} {descriptions : List Description}

/-- No document begins with a byte order mark. -/
theorem WritesDefinition.head_ne {text : List Char} (h : WritesDefinition descriptions text) :
    ∀ c ∈ text.head?, c ≠ '\uFEFF' := by
  obtain ⟨front, body, rfl, hfront, hbody⟩ := h
  rcases hfront with rfl | ⟨content, -, -, rfl⟩
  · cases hbody with
    | @cons _ _ s text more hs =>
        cases s with
        | nil =>
            rintro c ⟨⟩
            decide
        | cons blank rest =>
            rintro c ⟨⟩
            exact ne_of_isBlank (hs blank (List.mem_cons_self ..)) rfl
  · rintro c ⟨⟩
    decide

theorem reads_definition {text : List Char}
    (hexpressible : ∀ description ∈ descriptions, description.Expressible types)
    (h : WritesDefinition descriptions text) :
    Reader.Reads types AtTag text Reader.start (Reader.between descriptions) := by
  obtain ⟨front, body, rfl, hfront, hbody⟩ := h
  have hroot : Reader.Leads types
      [WritesElement "transformations" [] (Spaced (descriptions.map WritesDescription))]
      Reader.start (Reader.between descriptions) :=
    (Reader.leads_descriptions [] hexpressible).grouped (by decide) (by decide) (Or.inr rfl)
  have hbodyReads := hroot.reads hbody
  rcases hfront with rfl | hdeclaration
  · exact hbodyReads
  · have hfrontReads : Reader.Reads types Anything front Reader.start Reader.start :=
      ⟨[], delivers_declaration hdeclaration, rfl⟩
    exact hfrontReads.append hbodyReads fun _ _ => trivial

/-- **The reader gives back what was written.**  A document that writes descriptions, in whatever
way, is read as these descriptions. -/
theorem read_written {text : String}
    (hexpressible : ∀ description ∈ descriptions, description.Expressible types)
    (hwritten : WritesDefinition descriptions text.toList) :
    (read types text).result = .ok descriptions := by
  obtain ⟨events, hevents, hresult⟩ := reads_definition hexpressible hwritten
  have hdocument : Document.ofText text = ⟨events, none⟩ := by
    have hmark : Document.ofText text = readEvents [] (constructs text.toList) := by
      unfold Document.ofText
      split
      · rename_i rest hchars
        exact absurd rfl (hwritten.head_ne '\uFEFF' (by rw [hchars]; rfl))
      · rfl
    have hread := hevents [] [] (by simp [AtTag])
    rw [List.append_nil] at hread
    rw [hmark, hread]
    simp [constructs, construct?, readEvents, Document.afterAll]
  rw [read, ofDocument, hdocument]
  simp only [Attempt.result_bind, hresult, ok_bind]
  rfl

/-! ## Two descriptions of tickets -/

namespace Tickets

def table : TypeTable :=
  TypeTable.empty.insertAll [Descriptor.named "Issue", Descriptor.named "Ticket"]

def raise : Description :=
  ⟨"Issue", "Ticket", some "issue \"to\" ticket", none,
    [⟨.concat, ["project", "number & more"], some "key", [("concat", " <-> ")]⟩,
      ⟨.replace, ["title"], some "title", [("new", ""), ("old", "'")]⟩,
      ⟨.value, [], some "origin", [("value", "tracker")]⟩]⟩

def lower : Description :=
  ⟨"Ticket", "Issue", none, none, [⟨.trim, ["title"], some "temp.title", []⟩,
    ⟨.toLower, ["temp.title"], some "title", []⟩]⟩

theorem expressible : ∀ description ∈ [raise, lower, raise], description.Expressible table := by
  have hkeyed : table.Keyed := TypeTable.keyed_empty.insertAll _
  have hissue : table.Knows "Issue" := hkeyed.knows_iff.mpr rfl
  have hticket : table.Knows "Ticket" := hkeyed.knows_iff.mpr rfl
  have hraise : raise.Expressible table := ⟨hissue, hticket, rfl, by decide⟩
  have hlower : lower.Expressible table := ⟨hticket, hissue, rfl, by decide⟩
  simp [hraise, hlower]

theorem read_written_tickets :
    (read table (write [raise, lower, raise])).result = .ok [raise, lower, raise] :=
  read_written expressible (writesDefinition_write expressible)

end Tickets

end Remodel.Definition
