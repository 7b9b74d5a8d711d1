import MetadataSearch.Proofs.FileTree.OwnPath
import MetadataSearch.Proofs.Outcome
import MetadataSearch.Proofs.Path.Texts
import MetadataSearch.Proofs.Search.Collecting
import MetadataSearch.Toolbox

/-!
# What the engine gets to see

**Theorem (`conducted_of_reply`).** Whatever a client asks, the engine is given at most one scope or
path, which is absolute and accepted by the roots, and a scope only after its query was prepared. Under
the strict policy the scope is the canonical path of an existing directory. A call that is refused
with a missing or invalid argument or an unknown tool asks nothing of the engine.

A tool and a caller who writes a query of their own come to their scope by different ways, which agree
(`scopeArgument_eq_checkedScope`). For each tool one lemma says which requests it makes (`vetSearch_eq_ok`
and so on). With these every request is `Vetted`, whatever the order of its checks is. The calls on the
engine are those of the one request, and an error after them is of another category, so its message starts
differently.
-/

/-! ## Arguments -/

namespace MetadataSearch.Arguments

theorem text_of_get? {arguments : Arguments} {name text : String}
    (h : arguments.get? name = some (.string text)) (hne : text ≠ "") :
    arguments.text name = .ok text := by
  simp [Arguments.text, h, hne]

theorem text?_of_get? {arguments : Arguments} {name text : String}
    (h : arguments.get? name = some (.string text)) : arguments.text? name = some text := by
  simp [text?, h, Json.asString?]

/-- A path among the arguments is the one that its text spells, if that is absolute. -/
theorem path_of_text {arguments : Arguments} {name text : String} (h : arguments.text name = .ok text) :
    arguments.path name =
      if Path.isAbsolute (Path.ofText text) then .ok (Path.ofText text)
      else .error (.invalidArgument (.notAbsolute name text)) := by
  rw [path, h]
  simp only [Path.isAbsolute_ofText]
  rfl

theorem path_of_error {arguments : Arguments} {name : String} {e : ToolError}
    (h : arguments.text name = .error e) : arguments.path name = .error e := by
  rw [path, h]
  rfl

/-- An existing directory among the arguments is the one at the path, under its own path. -/
theorem scope_of_path {arguments : Arguments} {name : String} {path : Path} (files : FileTree)
    (h : arguments.path name = .ok path) :
    arguments.scope files name = (Toolbox.refusePath (files.scope path)).map Path.ofLocation := by
  rw [scope, h]
  show ((files.scope path).mapError fun fault => ToolError.invalidArgument (.path fault)) >>= _ = _
  rw [Toolbox.refusePath]
  cases (files.scope path).mapError fun fault => ToolError.invalidArgument (.path fault) <;> rfl

theorem scope_of_error {arguments : Arguments} {name : String} {e : ToolError} (files : FileTree)
    (h : arguments.path name = .error e) : arguments.scope files name = .error e := by
  rw [scope, h]
  rfl

theorem path_eq_ok {arguments : Arguments} {name : String} {path : Path} :
    arguments.path name = .ok path ↔
      ∃ text, arguments.text name = .ok text ∧ path = Path.ofText text ∧ Path.isAbsolute path = true := by
  constructor
  · intro h
    cases htext : arguments.text name with
    | error e =>
      rw [path_of_error htext] at h
      cases h
    | ok text =>
      rw [path_of_text htext] at h
      split at h
      case isFalse => cases h
      case isTrue habs =>
        obtain rfl := Except.ok.inj h
        exact ⟨text, rfl, rfl, habs⟩
  · rintro ⟨text, htext, rfl, habs⟩
    rw [path_of_text htext, if_pos habs]

theorem text?_of_text {arguments : Arguments} {name text : String}
    (h : arguments.text name = .ok text) : arguments.text? name = some text := by
  rw [Arguments.text] at h
  split at h
  case h_1 => cases h
  case h_3 => cases h
  case h_2 found hget =>
    split at h
    case isTrue => cases h
    case isFalse =>
      obtain rfl := Except.ok.inj h
      exact text?_of_get? hget

end MetadataSearch.Arguments

namespace MetadataSearch.Toolbox

/-- What a client may ask. -/
inductive Ask where
  | tool (name : String) (arguments : Arguments)
  | raw (fragment : String) (scope : Path) (limit : Option Int64)

def reply (box : Toolbox) : Ask → Answer × List Engine.Call
  | .tool name arguments => box.call name arguments
  | .raw fragment scope limit => box.callRaw fragment scope limit

/-- The request that is made of what a client asks. -/
def requestOf (box : Toolbox) : Ask → Except ToolError Request
  | .tool name arguments =>
    match Tool.ofName? name with
    | some tool => box.vet tool arguments
    | none => .error (.unknownTool name)
  | .raw fragment scope limit => box.vetRaw fragment scope limit

variable {box : Toolbox}

theorem reply_tool (box : Toolbox) (name : String) (arguments : Arguments) :
    box.reply (.tool name arguments) = box.call name arguments := rfl

theorem reply_eq (box : Toolbox) (ask : Ask) : box.reply ask = box.answer (box.requestOf ask) := by
  cases ask <;> rfl

/-! ## The requests of each tool -/

theorem refusePath_eq_ok {α : Type} {outcome : Except PathFault α} {a : α} :
    refusePath outcome = .ok a ↔ outcome = .ok a :=
  Outcome.mapError_eq_ok

theorem checkAllowed_eq_ok {path : Path} :
    box.checkAllowed path = .ok () ↔ ∃ location, box.files.withinAny box.roots path = .ok location := by
  constructor
  · intro h
    obtain ⟨location, hwithin, -⟩ := Outcome.bind_eq_ok.1 h
    exact ⟨location, refusePath_eq_ok.1 hwithin⟩
  · rintro ⟨location, hwithin⟩
    exact Outcome.bind_eq_ok.2 ⟨location, refusePath_eq_ok.2 hwithin, rfl⟩

/-- The scope that stands for a path. -/
def Stands (box : Toolbox) (path scope : Path) : Prop :=
  match box.policy with
  | .lenient => scope = path
  | .strict => ∃ location, box.files.scope path = .ok location ∧ scope = Path.ofLocation location

theorem checkedScope_eq_ok {path scope : Path} :
    box.checkedScope path = .ok scope ↔
      Path.isAbsolute path = true ∧ box.Stands path scope ∧
        ∃ location, box.files.withinAny box.roots scope = .ok location := by
  have hallowed : ∀ checked, (do
      box.checkAllowed checked
      return checked : Except ToolError Path) = .ok scope ↔
        scope = checked ∧ ∃ location, box.files.withinAny box.roots scope = .ok location := by
    intro checked
    constructor
    · intro h
      obtain ⟨⟨⟩, hchecked, h⟩ := Outcome.bind_eq_ok.1 h
      obtain rfl := Except.ok.inj h
      exact ⟨rfl, checkAllowed_eq_ok.1 hchecked⟩
    · rintro ⟨rfl, hwithin⟩
      exact Outcome.bind_eq_ok.2 ⟨(), checkAllowed_eq_ok.2 hwithin, rfl⟩
  rw [checkedScope, Stands]
  by_cases habs : Path.isAbsolute path = true
  · simp only [habs, Bool.not_true, Bool.false_eq_true, if_false, true_and]
    cases box.policy with
    | lenient => exact hallowed path
    | strict =>
      constructor
      · intro h
        obtain ⟨location, hscope, h⟩ := Outcome.bind_eq_ok.1 h
        obtain ⟨rfl, hwithin⟩ := (hallowed _).1 h
        exact ⟨⟨location, refusePath_eq_ok.1 hscope, rfl⟩, hwithin⟩
      · rintro ⟨⟨location, hscope, rfl⟩, hwithin⟩
        exact Outcome.bind_eq_ok.2 ⟨location, refusePath_eq_ok.2 hscope, (hallowed _).2 ⟨rfl, hwithin⟩⟩
  · simp only [habs]
    constructor
    · intro h
      cases h
    · rintro ⟨h, -⟩
      cases h

/-- **Both ways to a scope agree.** A scope among the arguments of a tool is checked as the path that it
spells is checked when the caller gives it, with the same outcome and the same message. -/
theorem scopeArgument_eq_checkedScope {arguments : Arguments} {text : String}
    (h : arguments.text "scope" = .ok text) :
    box.scopeArgument arguments = box.checkedScope (Path.ofText text) := by
  have hpath := Arguments.path_of_text h
  rw [scopeArgument, checkedScope, Path.text_ofText]
  by_cases habs : Path.isAbsolute (Path.ofText text) = true
  · rw [if_pos habs] at hpath
    rw [habs, hpath, Arguments.scope_of_path box.files hpath]
    cases box.policy with
    | lenient => rfl
    | strict => cases refusePath (box.files.scope (Path.ofText text)) <;> rfl
  · rw [if_neg habs] at hpath
    rw [Bool.not_eq_true] at habs
    rw [habs, hpath, Arguments.scope_of_error box.files hpath]
    cases box.policy with
    | lenient => rfl
    | strict => rfl

theorem scopeArgument_eq_ok {arguments : Arguments} {scope : Path} :
    box.scopeArgument arguments = .ok scope ↔
      ∃ path, arguments.path "scope" = .ok path ∧ box.checkedScope path = .ok scope := by
  cases htext : arguments.text "scope" with
  | error e =>
    have hpath := Arguments.path_of_error htext
    have hscope : box.scopeArgument arguments = .error e := by
      rw [scopeArgument, hpath, Arguments.scope_of_error box.files hpath]
      cases box.policy <;> rfl
    simp [hscope, hpath]
  | ok text =>
    rw [scopeArgument_eq_checkedScope htext]
    constructor
    · intro h
      have habs := (checkedScope_eq_ok.1 h).1
      exact ⟨_, Arguments.path_eq_ok.2 ⟨text, htext, rfl, habs⟩, h⟩
    · rintro ⟨path, hpath, h⟩
      obtain ⟨_, htext', rfl, -⟩ := Arguments.path_eq_ok.1 hpath
      obtain rfl := Except.ok.inj (htext.symm.trans htext')
      exact h

theorem vetSearch_eq_ok {arguments : Arguments} {request : Request} :
    box.vetSearch arguments = .ok request ↔
      ∃ text scope, arguments.text "query" = .ok text ∧ box.scopeArgument arguments = .ok scope ∧
        request = .find (Predicate.naturalText text) scope (limitOf arguments) := by
  constructor
  · intro h
    obtain ⟨text, htext, h⟩ := Outcome.bind_eq_ok.1 h
    obtain ⟨scope, hscope, h⟩ := Outcome.bind_eq_ok.1 h
    exact ⟨text, scope, htext, hscope, (Except.ok.inj h).symm⟩
  · rintro ⟨text, scope, htext, hscope, rfl⟩
    exact Outcome.bind_eq_ok.2 ⟨text, htext, Outcome.bind_eq_ok.2 ⟨scope, hscope, rfl⟩⟩

theorem vetSearchByKind_eq_ok {arguments : Arguments} {request : Request} :
    box.vetSearchByKind arguments = .ok request ↔
      ∃ name scope kind, arguments.text "kind" = .ok name ∧ box.scopeArgument arguments = .ok scope ∧
        Kind.ofName? name = some kind ∧
        request = .find (Predicate.ofKind kind) scope (limitOf arguments) := by
  constructor
  · intro h
    obtain ⟨name, hname, h⟩ := Outcome.bind_eq_ok.1 h
    obtain ⟨scope, hscope, h⟩ := Outcome.bind_eq_ok.1 h
    split at h
    case h_2 => cases h
    case h_1 kind hkind => exact ⟨name, scope, kind, hname, hscope, hkind, (Except.ok.inj h).symm⟩
  · rintro ⟨name, scope, kind, hname, hscope, hkind, rfl⟩
    refine Outcome.bind_eq_ok.2 ⟨name, hname, Outcome.bind_eq_ok.2 ⟨scope, hscope, ?_⟩⟩
    rw [hkind]
    rfl

theorem vetRecentFiles_eq_ok {arguments : Arguments} {request : Request} :
    box.vetRecentFiles arguments = .ok request ↔
      ∃ scope since, box.scopeArgument arguments = .ok scope ∧ box.sinceOf arguments = .ok since ∧
        request = .find (Predicate.modifiedSince since.format) scope (limitOf arguments) := by
  constructor
  · intro h
    obtain ⟨scope, hscope, h⟩ := Outcome.bind_eq_ok.1 h
    obtain ⟨since, hsince, h⟩ := Outcome.bind_eq_ok.1 h
    exact ⟨scope, since, hscope, hsince, (Except.ok.inj h).symm⟩
  · rintro ⟨scope, since, hscope, hsince, rfl⟩
    exact Outcome.bind_eq_ok.2 ⟨scope, hscope, Outcome.bind_eq_ok.2 ⟨since, hsince, rfl⟩⟩

theorem vetGetMetadata_eq_ok {arguments : Arguments} {request : Request} :
    box.vetGetMetadata arguments = .ok request ↔
      ∃ asked location, arguments.path "path" = .ok asked ∧ box.files.settled asked = .ok location ∧
        (∃ settled, box.files.withinAny box.roots (Path.ofLocation location) = .ok settled) ∧
        (box.files.node? (Path.ofLocation location)).isSome = true ∧
        request = .describe asked (Path.ofLocation location) := by
  constructor
  · intro h
    obtain ⟨asked, hasked, h⟩ := Outcome.bind_eq_ok.1 h
    obtain ⟨location, hlocation, h⟩ := Outcome.bind_eq_ok.1 h
    obtain ⟨⟨⟩, hallowed, h⟩ := Outcome.bind_eq_ok.1 h
    split at h
    case isFalse => cases h
    case isTrue hnode =>
      exact ⟨asked, location, hasked, refusePath_eq_ok.1 hlocation, checkAllowed_eq_ok.1 hallowed, hnode,
        (Except.ok.inj h).symm⟩
  · rintro ⟨asked, location, hasked, hlocation, hallowed, hnode, rfl⟩
    refine Outcome.bind_eq_ok.2 ⟨asked, hasked, ?_⟩
    refine Outcome.bind_eq_ok.2 ⟨location, refusePath_eq_ok.2 hlocation, ?_⟩
    exact Outcome.bind_eq_ok.2 ⟨(), checkAllowed_eq_ok.2 hallowed, if_pos hnode⟩

theorem vetRaw_eq_ok {fragment : String} {path : Path} {limit : Option Int64} {request : Request} :
    box.vetRaw fragment path limit = .ok request ↔
      ∃ predicate scope, Predicate.raw fragment = .ok predicate ∧ box.checkedScope path = .ok scope ∧
        request = .find predicate scope (Limit.ofRequest limit) := by
  constructor
  · intro h
    obtain ⟨predicate, hraw, h⟩ := Outcome.bind_eq_ok.1 h
    obtain ⟨scope, hscope, h⟩ := Outcome.bind_eq_ok.1 h
    exact ⟨predicate, scope, Outcome.mapError_eq_ok.1 hraw, hscope, (Except.ok.inj h).symm⟩
  · rintro ⟨predicate, scope, hraw, hscope, rfl⟩
    refine Outcome.bind_eq_ok.2 ⟨predicate, Outcome.mapError_eq_ok.2 hraw, ?_⟩
    exact Outcome.bind_eq_ok.2 ⟨scope, hscope, rfl⟩

/-! ## Vetted requests -/

/-- An absolute path that the roots accept. -/
structure PathVetted (box : Toolbox) (path : Path) : Prop where
  absolute : Path.isAbsolute path = true
  accepted : ∃ location, box.files.withinAny box.roots path = .ok location

/-- A vetted path that the strict policy has put in place of a directory. -/
structure ScopeVetted (box : Toolbox) (scope : Path) : Prop extends PathVetted box scope where
  existing : box.policy = .strict → ∃ location, scope = Path.ofLocation location ∧
    box.files.canonical? scope = some location ∧
    (box.files.at? location).any Node.isDirectory = true

/-- The scope or path of a request is vetted. -/
def Vetted (box : Toolbox) : Request → Prop
  | .find _ scope _ => box.ScopeVetted scope
  | .describe _ path => box.PathVetted path

theorem scopeVetted_of_checkedScope {path scope : Path} (h : box.checkedScope path = .ok scope) :
    box.ScopeVetted scope := by
  obtain ⟨habs, hstands, haccepted⟩ := checkedScope_eq_ok.1 h
  rw [Stands] at hstands
  split at hstands
  case h_1 hlenient =>
    subst hstands
    exact ⟨⟨habs, haccepted⟩, fun hstrict => by rw [hlenient] at hstrict; cases hstrict⟩
  case h_2 =>
    obtain ⟨location, hscope, rfl⟩ := hstands
    obtain ⟨-, hcanonical, hdirectory⟩ := FileTree.canonical_of_scope habs hscope
    exact ⟨⟨Path.isAbsolute_ofLocation location, haccepted⟩,
      fun _ => ⟨location, rfl, hcanonical, hdirectory⟩⟩

theorem scopeVetted_of_scopeArgument {arguments : Arguments} {scope : Path}
    (h : box.scopeArgument arguments = .ok scope) : box.ScopeVetted scope := by
  obtain ⟨path, -, h⟩ := scopeArgument_eq_ok.1 h
  exact scopeVetted_of_checkedScope h

theorem vetted_of_vet {tool : Tool} {arguments : Arguments} {request : Request}
    (h : box.vet tool arguments = .ok request) : box.Vetted request := by
  cases tool with
  | search =>
    obtain ⟨text, scope, -, hscope, rfl⟩ := vetSearch_eq_ok.1 h
    exact scopeVetted_of_scopeArgument hscope
  | searchByKind =>
    obtain ⟨name, scope, kind, -, hscope, -, rfl⟩ := vetSearchByKind_eq_ok.1 h
    exact scopeVetted_of_scopeArgument hscope
  | recentFiles =>
    obtain ⟨scope, since, hscope, -, rfl⟩ := vetRecentFiles_eq_ok.1 h
    exact scopeVetted_of_scopeArgument hscope
  | getMetadata =>
    obtain ⟨asked, location, -, -, haccepted, -, rfl⟩ := vetGetMetadata_eq_ok.1 h
    exact ⟨Path.isAbsolute_ofLocation location, haccepted⟩

/-- Every request is vetted, of a tool or of a query written by the caller. -/
theorem vetted_of_requestOf {ask : Ask} {request : Request} (h : box.requestOf ask = .ok request) :
    box.Vetted request := by
  cases ask with
  | tool name arguments =>
    rw [requestOf] at h
    split at h
    case h_1 tool _ => exact vetted_of_vet h
    case h_2 => cases h
  | raw fragment path limit =>
    obtain ⟨predicate, scope, -, hscope, rfl⟩ := vetRaw_eq_ok.1 h
    exact scopeVetted_of_checkedScope hscope

/-! ## Calls on the engine -/

/-- The calls on the engine for what a client asks: none, or those of one search or of one look. The
scope of a search is set once, after its query was prepared, and before any handle is read. -/
inductive Conducted (box : Toolbox) : List Engine.Call → Prop
  | idle : Conducted box []
  | unprepared {query : String} {e : EngineError} :
      box.engine.prepare query = .error e → Conducted box [.prepare query]
  | searched {query : String} {scope : Path} {prepared : PreparedQuery} (read : Nat) :
      box.engine.prepare query = .ok prepared → box.ScopeVetted scope →
      Conducted box (.prepare query :: .setScopes [scope] :: (List.range read).map .read)
  | looked {path : Path} : box.PathVetted path → Conducted box [.item path]

theorem conducted_of_run {query : String} {scope : Path} (cap : Option Nat) (h : box.ScopeVetted scope) :
    box.Conducted (Search.run box.engine query [scope] cap).2 := by
  rcases Search.calls_of_run box.engine query cap (List.cons_ne_nil scope []) with
    ⟨e, hprepare, hcalls⟩ | ⟨prepared, read, hprepare, hcalls⟩
  · rw [hcalls]
    exact .unprepared hprepare
  · rw [hcalls]
    exact .searched read hprepare h

/-- A search is never without a call. -/
theorem run_ne_nil {query : String} {scope : Path} (cap : Option Nat) :
    (Search.run box.engine query [scope] cap).2 ≠ [] := by
  rcases Search.calls_of_run box.engine query cap (List.cons_ne_nil scope []) with
    ⟨e, -, hcalls⟩ | ⟨prepared, read, -, hcalls⟩
  · rw [hcalls]
    exact List.cons_ne_nil _ _
  · rw [hcalls]
    exact List.cons_ne_nil _ _

theorem perform_find (predicate : Predicate) (scope : Path) (limit : Nat) :
    box.perform (.find predicate scope limit) =
      (((Search.run box.engine predicate.text [scope] (some limit)).1.map fun results =>
          Answer.ofResults (Limit.keep limit results)).mapError .queryFailed,
        (Search.run box.engine predicate.text [scope] (some limit)).2) := by
  rw [perform]
  split
  case h_1 hrun => rw [hrun]; rfl
  case h_2 hrun => rw [hrun]; rfl

theorem conducted_of_perform {request : Request} (h : box.Vetted request) :
    box.Conducted (box.perform request).2 := by
  cases request with
  | find predicate scope limit =>
    rw [perform_find]
    exact conducted_of_run (some limit) h
  | describe asked path =>
    rw [perform]
    split <;> exact .looked h

theorem perform_ne_nil (request : Request) : (box.perform request).2 ≠ [] := by
  cases request with
  | find predicate scope limit =>
    rw [perform_find]
    exact run_ne_nil (some limit)
  | describe asked path =>
    rw [perform]
    split <;> exact List.cons_ne_nil _ _

/-- A call that succeeds has carried out a request. -/
theorem exists_request_of_reply {ask : Ask} (hok : (box.reply ask).1.isError = false) :
    ∃ request text, box.requestOf ask = .ok request ∧ (box.perform request).1 = .ok text ∧
      box.reply ask = (⟨text, false⟩, (box.perform request).2) := by
  rw [reply_eq] at hok ⊢
  cases hrequest : box.requestOf ask with
  | error e =>
    rw [hrequest] at hok
    cases hok
  | ok request =>
    rw [hrequest, answer] at hok
    cases hperform : (box.perform request).1 with
    | error e =>
      simp only [hperform] at hok
      cases hok
    | ok text =>
      refine ⟨request, text, rfl, hperform, ?_⟩
      simp only [answer, hperform]
      rfl

/-! ## Errors -/

/-- How the message of a call that was refused may start. -/
def refusals : List String :=
  ["Missing required argument:", "Invalid argument:", "Unknown tool:"]

theorem category_of_perform {request : Request} {e : ToolError}
    (h : (box.perform request).1 = .error e) :
    e.category = .queryFailed ∨ e.category = .fileNotFound := by
  cases request with
  | find predicate scope limit =>
    rw [perform_find] at h
    cases hrun : (Search.run box.engine predicate.text [scope] (some limit)).1 with
    | ok results =>
      rw [hrun] at h
      cases h
    | error cause =>
      rw [hrun] at h
      obtain rfl := Except.error.inj h
      exact .inl rfl
  | describe asked path =>
    rw [perform] at h
    split at h
    case h_1 => cases h
    case h_2 =>
      obtain rfl := Except.error.inj h
      exact .inr rfl

/-- An error of the engine is not told as a refusal. -/
theorem not_refusal_of_perform {request : Request} {e : ToolError}
    (h : (box.perform request).1 = .error e) :
    ∀ start ∈ refusals, ¬ start.toList <+: e.message.toList := by
  -- The first letters differ already.
  have hhead : e.message.toList.head? = some 'Q' ∨ e.message.toList.head? = some 'F' := by
    rw [ToolError.message, ToolError.Category.message, String.toList_append, String.toList_append]
    rcases category_of_perform h with hcategory | hcategory <;> rw [hcategory]
    · exact .inl rfl
    · exact .inr rfl
  have hfirst : ∀ start ∈ refusals, start.toList.head? = some 'M' ∨ start.toList.head? = some 'I' ∨
      start.toList.head? = some 'U' := by decide
  rintro start hstart ⟨rest, hrest⟩
  rw [← hrest, List.head?_append] at hhead
  rcases hfirst start hstart with h | h | h <;> rw [h] at hhead <;> simp at hhead

/-- **The engine sees only what was vetted.** Whatever is asked, the calls on the engine are those of
one search or of one look, over a vetted scope or path; a call that succeeds made such calls, and one
whose message is a refusal made none. -/
theorem conducted_of_reply (box : Toolbox) (ask : Ask) :
    box.Conducted (box.reply ask).2 ∧
      ((box.reply ask).1.isError = false → (box.reply ask).2 ≠ []) ∧
      ((box.reply ask).1.isError = true →
        (∃ start ∈ refusals, start.toList <+: (box.reply ask).1.text.toList) →
        (box.reply ask).2 = []) := by
  rw [reply_eq]
  cases hrequest : box.requestOf ask with
  | error e => exact ⟨.idle, fun h => (by cases h), fun _ _ => rfl⟩
  | ok request =>
    refine ⟨conducted_of_perform (vetted_of_requestOf hrequest), fun _ => perform_ne_nil request, ?_⟩
    rintro herror ⟨start, hstart, hprefix⟩
    cases hperform : (box.perform request).1 with
    | ok text =>
      simp only [answer, hperform] at herror
      cases herror
    | error e =>
      simp only [answer, hperform] at hprefix
      exact absurd hprefix (not_refusal_of_perform hperform start hstart)

end MetadataSearch.Toolbox
