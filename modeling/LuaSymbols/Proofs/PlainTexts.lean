import LuaSymbols.Markup
import LuaSymbols.Proofs.Passes
import LuaSymbols.Proofs.Refusals
import LuaSymbols.Proofs.Reports

namespace LuaSymbols

namespace Markup

variable {front rest style word text : List Char} {styles styles' : List String} {c : Char}

theorem tagAt?_of_ne (h : c ≠ '[') (rest : List Char) : tagAt? (c :: rest) = none := by
  unfold tagAt?
  split
  · rename_i he
    cases he
    exact absurd rfl h
  · rfl

theorem tagAt?_tag (hc : opensTag c = true) (h : ∀ d ∈ style, d ≠ '[' ∧ d ≠ ']') :
    tagAt? ('[' :: c :: (style ++ ']' :: rest)) = some (c :: style) := by
  have hinside : (style ++ ']' :: rest).takeWhile (fun d => d != '[' && d != ']') = style := by
    rw [List.takeWhile_append_of_pos (by simpa using h)]
    simp
  simp [tagAt?, hc, hinside]

/-- Text without an opening bracket can neither open nor close a style, and the backslashes in it can
at most keep a tag behind it from being one. -/
theorem isSome_render_append (h : '[' ∉ front)
    (hrest : ∀ escapes, (render 0 escapes styles rest).isSome = true) (escapes : Nat) :
    (render 0 escapes styles (front ++ rest)).isSome = true := by
  induction front generalizing escapes with
  | nil => exact hrest escapes
  | cons c front ih =>
    have hne : c ≠ '[' := fun he => h (he ▸ List.mem_cons_self)
    have htail := ih fun hm => h (List.mem_cons_of_mem _ hm)
    rw [List.cons_append, render, tagAt?_of_ne hne]
    by_cases hc : c = '\\'
    · simp [hc, htail]
    · simp [hc, htail]

theorem isSome_render_plain (h : '[' ∉ text) (styles : List String) (escapes : Nat) :
    (render 0 escapes styles text).isSome = true := by
  have hnil : ∀ escapes, (render 0 escapes styles []).isSome = true := fun _ => rfl
  simpa using isSome_render_append h hnil escapes

theorem render_skip (styles : List String) (front rest : List Char) :
    render front.length 0 styles (front ++ rest) = render 0 0 styles rest := by
  induction front with
  | nil => rfl
  | cons c front ih =>
    rw [List.cons_append, render, List.length_cons, if_pos (Nat.succ_pos _)]
    exact ih

/-- A tag is taken for one or, behind an odd number of backslashes, for text. -/
theorem isSome_render_tag (hc : opensTag c = true) (h : ∀ d ∈ style, d ≠ '[' ∧ d ≠ ']')
    (hturn : turn? styles (c :: style) = some styles') {escapes : Nat}
    (hkept : escapes % 2 = 1 → (render 0 0 styles rest).isSome = true)
    (hturned : (render 0 0 styles' rest).isSome = true) :
    (render 0 escapes styles ('[' :: c :: (style ++ ']' :: rest))).isSome = true := by
  have hskip (styles : List String) : render ((c :: style).length + 1) 0 styles
      (c :: (style ++ ']' :: rest)) = render 0 0 styles rest := by
    simpa using render_skip styles (c :: style ++ [']']) rest
  rw [render, tagAt?_tag hc h]
  simp only [hskip, hturn, Nat.lt_irrefl, ↓reduceIte, Option.bind_eq_bind, Option.bind_some]
  rw [if_neg (by decide : '[' ≠ '\\')]
  split
  · rename_i hodd
    rw [Option.isSome_map]
    exact hkept hodd
  · rw [Option.isSome_map]
    exact hturned

/-- Words in a style of their own and a plain text behind them: the style is closed before the text
begins, or stays open to its end. -/
theorem isSome_console_marked (c : Char) (style word : List Char) (name : String)
    {head tail : String}
    (hhead : head.toList =
      '[' :: c :: (style ++ ']' :: (word ++ '[' :: '/' :: (c :: style ++ [']']))))
    (hc : opensTag c = true) (h : ∀ d ∈ style, d ≠ '[' ∧ d ≠ ']')
    (hon : turn? [] (c :: style) = some [name]) (hoff : turn? [name] ('/' :: c :: style) = some [])
    (hword : '[' ∉ word) (htail : '[' ∉ tail.toList) : (console (head ++ tail)).isSome = true := by
  have hplain (styles : List String) := isSome_render_plain htail styles 0
  have hclosing : ∀ d ∈ c :: style, d ≠ '[' ∧ d ≠ ']' := by
    intro d hd
    rcases List.mem_cons.mp hd with rfl | hd
    · constructor <;> rintro rfl <;> simp [opensTag] at hc
    · exact h d hd
  rw [console, Option.isSome_map, String.toList_append, hhead]
  simp only [List.cons_append, List.append_assoc, List.nil_append]
  refine isSome_render_tag hc h hon nofun (isSome_render_append hword ?_ 0)
  intro escapes
  exact isSome_render_tag (by decide) hclosing hoff (fun _ => hplain _) (hplain _)

end Markup

/-- The two texts that a warning quotes as they are: what it is about, and what is wrong with it. -/
def Notice.quotes? : Notice → Option (String × String)
  | .cannotParse identity failure => some (identity, failure.text)
  | .noContent identity reason => some (identity, reason)
  | .skipping path reason => some (path, reason)
  | .rebuilt _ _ | .evicted _ | .resolved _ _ | .found _ => none

/-- A warning is shown if what it quotes has no opening bracket in it. -/
theorem Notice.shows_of_plain {n : Notice} {about wrong : String}
    (h : n.quotes? = some (about, wrong)) (habout : '[' ∉ about.toList)
    (hwrong : '[' ∉ wrong.toList) : Markup.console.shows n = true := by
  have hshown (lead : String) (hlead : '[' ∉ lead.toList) :
      (Markup.console ("[yellow]Warning[/yellow]" ++ lead ++ about ++ ": " ++ wrong)).isSome =
        true := by
    have htail : '[' ∉ (lead ++ (about ++ (": " ++ wrong))).toList := by
      simp only [String.toList_append, List.mem_append, not_or]
      exact ⟨hlead, habout, by decide, hwrong⟩
    simp only [String.append_assoc]
    exact Markup.isSome_console_marked 'y' "ellow".toList "Warning".toList "yellow" (by decide)
      (by decide) (by simp) (by decide +kernel) (by decide +kernel) (by decide) htail
  cases n with
  | cannotParse identity failure =>
    cases h
    exact hshown ": Cannot parse " (by decide)
  | noContent identity reason =>
    cases h
    exact hshown ": No content for " (by decide)
  | skipping path reason =>
    cases h
    exact hshown ": Skipping " (by decide)
  | rebuilt _ _ | evicted _ | resolved _ _ | found _ => cases h

/-- The same for the warning about a settings file, whose words are in a style up to the colon. -/
theorem Settings.File.announced_of_plain {file : File} {complaint : List Char → String}
    (hpath : '[' ∉ file.path.text.toList)
    (hreason : ∀ reason, file.content.PassedOver complaint reason → '[' ∉ reason.toList) :
    file.Announced Markup.console complaint := by
  intro reason hpassed
  have htail : '[' ∉ (" Could not parse " ++ (file.path.text ++ (": " ++ reason))).toList := by
    simp only [String.toList_append, List.mem_append, not_or]
    exact ⟨by decide, hpath, by decide, hreason reason hpassed⟩
  change (Markup.console ("[yellow]Warning:[/yellow]" ++ " Could not parse " ++ file.path.text ++
    ": " ++ reason)).isSome = true
  simp only [String.append_assoc]
  exact Markup.isSome_console_marked 'y' "ellow".toList "Warning:".toList "yellow" (by decide)
    (by decide) (by simp) (by decide +kernel) (by decide +kernel) (by decide) htail

theorem Command.isSome_errorLine {message : String} (h : '[' ∉ message.toList) :
    (Markup.console (errorLine message)).isSome = true := by
  have htail : '[' ∉ (" " ++ message).toList := by
    simp only [String.toList_append, List.mem_append, not_or]
    exact ⟨by decide, h⟩
  change (Markup.console ("[bold red]Error:[/bold red]" ++ " " ++ message)).isSome = true
  rw [String.append_assoc]
  exact Markup.isSome_console_marked 'b' "old red".toList "Error:".toList "bold red" (by decide)
    (by decide) (by simp) (by decide +kernel) (by decide +kernel) (by decide) htail

/-- A warning about a document: there is no text for it, or a text that does not parse. -/
inductive Notice.WarnsOf (parser : Parser) (identity : String) : Notice → Prop
  | noContent : WarnsOf parser identity (.noContent identity (missingText identity))
  | cannotParse {text : Text} {failure : ParseFailure} : parser text = .error (.failure failure) →
      WarnsOf parser identity (.cannotParse identity failure)

theorem Notice.WarnsOf.shown {parser : Parser} {identity : String} {n : Notice}
    (h : n.WarnsOf parser identity) (hidentity : '[' ∉ identity.toList)
    (hfailures : ∀ text failure, parser text = .error (.failure failure) →
      '[' ∉ failure.text.toList) : Markup.console.shows n = true := by
  cases h with
  | noContent =>
    refine shows_of_plain rfl hidentity ?_
    change '[' ∉ ("No text stored for " ++ identity).toList
    simp [hidentity]
  | @cannotParse text failure hp => exact shows_of_plain rfl hidentity (hfailures text failure hp)

theorem Slot.warnsOf_of_mem_notices {c : Slot} {parser : Parser} {identity : String} {n : Notice}
    (hn : n ∈ c.notices parser false identity) : n.WarnsOf parser identity := by
  unfold notices at hn
  split at hn
  · cases hn
  split at hn
  · split at hn
    · rw [List.mem_singleton.mp hn]
      exact .noContent
    · split at hn
      · rename_i failure hp
        rw [List.mem_singleton.mp hn]
        exact .cannotParse hp
      · cases hn
      · split at hn <;> cases hn
  · cases hn

/-- A tracked file is heard if its name, the reason for a missing text and the messages about texts are
plain. A parser that breaks a rule is not heard of at all. -/
theorem Workspace.heard_of_plain {w : Workspace} {tools : Tools} {provider : ContentProvider}
    {identity : String} (hconsole : tools.console = Markup.console)
    (hnames : ∀ f, w.get? identity = some f → '[' ∉ f.identity.toList)
    (hreasons : ∀ identity reason, provider identity = .error reason → '[' ∉ reason.toList)
    (hfailures : ∀ text failure, tools.parser text = .error (.failure failure) →
      '[' ∉ failure.text.toList) : w.Heard tools provider identity := by
  intro f hf n hn
  rw [hconsole]
  unfold FileIndex.refresh at hn
  split at hn
  · split at hn
    · rename_i reason hreason
      rw [List.mem_singleton.mp hn]
      exact Notice.shows_of_plain rfl (hnames f hf) (hreasons _ reason hreason)
    · rename_i text _
      cases hp : tools.parser text with
      | error why =>
        cases why with
        | failure failure =>
          have hr : f.rebuild text tools.lenient.parser = .ok (f.fail failure, some failure) :=
            FileIndex.rebuild_of_failure hp
          rw [hr] at hn
          rw [List.mem_singleton.mp hn]
          exact Notice.shows_of_plain rfl (hnames f hf) (hfailures text failure hp)
        | fault fault => simp [FileIndex.rebuild, Tools.lenient, hp] at hn
      | ok tree =>
        simp only [FileIndex.rebuild, Tools.lenient, hp] at hn
        cases hw : tree.walk f.identity <;> simp [hw] at hn
  · cases hn

/-- The documents that an operation names. -/
def Operation.named : Operation → List String
  | .opened uri _ | .saved uri _ | .changed uri _ | .closed uri | .evict uri | .listSymbols uri
  | .findDefinition uri _ | .diagnostics uri => [identityOf uri]
  | .seed documents => documents.map fun d => identityOf d.1

theorem mem_of_mem_enlist {tracked : List String} {identity other : String}
    (h : other ∈ enlist tracked identity) : other ∈ tracked ∨ other = identity := by
  unfold enlist at h
  split at h
  · exact .inl h
  · simpa using h

/-- An operation tracks no document but those that it names. -/
theorem Operation.mem_of_mem_tracking {evictOnClose : Bool} {tracked : List String} {op : Operation}
    {identity : String} (h : identity ∈ op.tracking evictOnClose tracked) :
    identity ∈ tracked ∨ identity ∈ op.named := by
  cases op with
  | opened uri text | saved uri text => simpa [named] using mem_of_mem_enlist h
  | closed uri =>
    simp only [tracking] at h
    split at h
    · exact .inl (List.mem_filter.mp h).1
    · exact .inl h
  | evict uri => exact .inl (List.mem_filter.mp h).1
  | changed _ _ | listSymbols _ | findDefinition _ _ | diagnostics _ => exact .inl h
  | seed documents =>
    simp only [tracking, named] at h ⊢
    induction documents generalizing tracked with
    | nil => exact .inl h
    | cons d rest ih =>
      rcases ih h with h | h
      · rcases mem_of_mem_enlist h with h | rfl
        · exact .inl h
        · exact .inr List.mem_cons_self
      · exact .inr (List.mem_cons_of_mem _ h)

namespace Service

variable {tools : Tools} {s : Service}

/-- A pass tells nothing but what refreshes of its files tell. -/
theorem exists_of_mem_notices_refreshAll (hp : tools.parser.Lawful) (hk : s.Keyed)
    {identities : List String} {n : Notice}
    (hn : n ∈ (s.refreshAll tools.lenient identities).notices) :
    ∃ identity ∈ identities, n ∈ (s.slot identity).notices tools.parser s.verbose identity := by
  induction identities generalizing s with
  | nil => cases hn
  | cons first rest ih =>
    have hstep : Refreshes tools.lenient s (s.refresh tools.lenient first).service :=
      .single ⟨first, rfl⟩
    rw [refreshAll, Reply.andThen_of_ok (refresh_answer hp.lenient s first), List.mem_append,
      refresh_notices hk] at hn
    rcases hn with hn | hn
    · exact ⟨first, List.mem_cons_self, hn⟩
    · obtain ⟨identity, hm, hn⟩ := ih (hstep.steps.keyed hk) hn
      exact ⟨identity, List.mem_cons_of_mem _ hm, hstep.notices_subset hk identity hn⟩

/-- Without debugging a look-up tells what refreshes of the file and of the tracked ones tell. -/
theorem exists_of_mem_notices_findDefinition (hp : tools.parser.Lawful) (hk : s.Keyed)
    (hquiet : s.verbose = false) {uri : String} {p : Position} {n : Notice}
    (hn : n ∈ (s.findDefinition tools.lenient uri p).notices) :
    ∃ identity, (identity ∈ s.workspace.keys ∨ identity = identityOf uri) ∧
      n ∈ (s.slot identity).notices tools.parser s.verbose identity := by
  have hfirst := s.query_refreshes tools.lenient uri none fun f => f.occurrenceAt? p
  have hnotices := query_notices hk tools uri none fun f => f.occurrenceAt? p
  have hanswer := query_answer hp.lenient hk uri none fun f => f.occurrenceAt? p
  rw [findDefinition, Reply.andThen_of_ok hanswer, hnotices] at hn
  generalize (s.query tools.lenient uri none fun f => f.occurrenceAt? p).service = s' at hfirst hn
  rcases List.mem_append.mp hn with hn | hn
  · exact ⟨identityOf uri, .inr rfl, hn⟩
  · split at hn
    · cases hn
    · dsimp only at hn
      rw [Reply.andThen_of_ok (refreshAll_answer hp.lenient _ _)] at hn
      rcases List.mem_append.mp hn with hn | hn
      · obtain ⟨identity, hm, hn⟩ := exists_of_mem_notices_refreshAll hp (hfirst.steps.keyed hk) hn
        rw [hfirst.keys] at hm
        exact ⟨identity, .inl (List.mem_filter.mp hm).1, hfirst.notices_subset hk identity hn⟩
      · have hverbose := fun identities =>
          (refreshAll_refreshes tools.lenient identities s').steps.options.2
        rw [debug_notices, hverbose, hfirst.steps.options.2, if_neg (by simp [hquiet])] at hn
        cases hn

/-- Without debugging an operation tells nothing but warnings about documents that are tracked or
named. -/
theorem warnsOf_of_mem_perform (hp : tools.parser.Lawful) (hk : s.Keyed) (hquiet : s.verbose = false)
    {op : Operation} {n : Notice} (hn : n ∈ (s.perform tools.lenient op).notices) :
    ∃ identity, (identity ∈ s.workspace.keys ∨ identity ∈ op.named) ∧
      n.WarnsOf tools.parser identity := by
  have hevict (uri : String) : (s.evict tools.lenient uri).notices = [] := by
    unfold evict
    split
    · rw [debug_notices, if_neg (by simp [without, hquiet])]
    · rfl
  have hquery {α : Type} {uri : String} {unknown : α} {read : FileIndex → α}
      (hn : n ∈ (s.query tools.lenient uri unknown read).notices) :
      n.WarnsOf tools.parser (identityOf uri) := by
    rw [query_notices hk, hquiet] at hn
    exact Slot.warnsOf_of_mem_notices hn
  cases op with
  | opened uri text | saved uri text | changed uri text => cases hn
  | closed uri =>
    change n ∈ (s.closed tools.lenient uri).notices at hn
    unfold closed at hn
    split at hn
    · change n ∈ (s.evict tools.lenient uri).notices at hn
      rw [hevict] at hn
      cases hn
    · cases hn
  | evict uri =>
    change n ∈ (s.evict tools.lenient uri).notices at hn
    rw [hevict] at hn
    cases hn
  | seed documents =>
    change n ∈ (s.seed tools.lenient documents).notices at hn
    rw [seed, seedFrom_notices hp] at hn
    obtain ⟨d, hd, hwarning⟩ := List.mem_filterMap.mp hn
    refine ⟨identityOf d.1, .inr (List.mem_map_of_mem hd), ?_⟩
    unfold warning? at hwarning
    split at hwarning
    · rename_i failure hfailure
      cases hwarning
      exact .cannotParse hfailure
    · cases hwarning
  | listSymbols uri =>
    change n ∈ (s.query tools.lenient uri [] (·.symbols)).notices at hn
    exact ⟨_, .inr List.mem_cons_self, hquery hn⟩
  | diagnostics uri =>
    change n ∈ (s.query tools.lenient uri [] problemsOf).notices at hn
    exact ⟨_, .inr List.mem_cons_self, hquery hn⟩
  | findDefinition uri p =>
    change n ∈ (s.findDefinition tools.lenient uri p).notices at hn
    obtain ⟨identity, hm, hn⟩ := exists_of_mem_notices_findDefinition hp hk hquiet hn
    rw [hquiet] at hn
    refine ⟨identity, hm.imp_right ?_, Slot.warnsOf_of_mem_notices hn⟩
    rintro rfl
    exact List.mem_cons_self

/-- On the console that takes brackets for markup, an index that is not debugged is heard throughout as
long as no name of a document and no message about a text has an opening bracket in it. -/
theorem heard_of_plain (hconsole : tools.console = Markup.console) (hp : tools.parser.Lawful)
    (hfailures : ∀ text failure, tools.parser text = .error (.failure failure) →
      '[' ∉ failure.text.toList) (hk : s.Keyed) (hquiet : s.verbose = false)
    (hkeys : ∀ identity ∈ s.workspace.keys, '[' ∉ identity.toList) {ops : List Operation}
    (hops : ∀ op ∈ ops, ∀ identity ∈ op.named, '[' ∉ identity.toList) : s.Heard tools ops := by
  induction ops generalizing s with
  | nil => exact Console.showsAll_nil _
  | cons op rest ih =>
    have hop := hops op List.mem_cons_self
    have hsteps := s.perform_steps tools.lenient op
    rw [heard_cons]
    constructor
    · intro n hn
      obtain ⟨identity, hmem, hwarns⟩ := warnsOf_of_mem_perform hp hk hquiet hn
      rw [hconsole]
      exact hwarns.shown (hmem.elim (hkeys identity) (hop identity)) hfailures
    · refine ih (hsteps.keyed hk) (hsteps.options.2.trans hquiet) ?_
        fun op hm => hops op (List.mem_cons_of_mem _ hm)
      intro identity hmem
      rw [keys_perform] at hmem
      have hreached : op.reached s tools.lenient = op := by
        cases op with
        | seed documents => simp [Operation.reached, taken_lawful hp.lenient]
        | _ => rfl
      rw [hreached] at hmem
      exact (Operation.mem_of_mem_tracking hmem).elim (hkeys identity) (hop identity)

end Service

end LuaSymbols
