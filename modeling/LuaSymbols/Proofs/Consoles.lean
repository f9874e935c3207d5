import LuaSymbols.Service

namespace LuaSymbols

def Tools.lenient (tools : Tools) : Tools := ⟨tools.parser, some⟩

def Console.ShowsAll (c : Console) (notices : List Notice) : Prop := ∀ n ∈ notices, c.shows n = true

instance (c : Console) (notices : List Notice) : Decidable (c.ShowsAll notices) :=
  inferInstanceAs (Decidable (∀ n ∈ notices, c.shows n = true))

theorem Console.showsAll_nil (c : Console) : c.ShowsAll [] := fun _ h => nomatch h

theorem Console.showsAll_append {c : Console} {first second : List Notice} :
    c.ShowsAll (first ++ second) ↔ c.ShowsAll first ∧ c.ShowsAll second := by
  simp only [ShowsAll, List.forall_mem_append]

theorem Tools.lenient_shows (tools : Tools) (n : Notice) : tools.lenient.console.shows n = true := rfl

/-- A reply under a console that may refuse lines, beside the full reply of an operation that no
console stops: nothing of it is refused and the replies are the same, or the console has stopped the
operation. -/
inductive Reply.Follows {α : Type} (c : Console) (full : Reply α) : Reply α → Prop
  | heard {r : Reply α} : c.ShowsAll full.notices → r = full → Follows c full r
  | refused {r : Reply α} {n : Notice} : n ∈ full.notices → c.shows n = false →
      (∃ markup, r.answer = .error (.unprintable markup)) → Follows c full r

namespace Reply

variable {α β : Type} {c : Console} {full r : Reply α} {next : Service → α → Reply β}

theorem andThen_of_error {fault : Fault} (h : r.answer = .error fault)
    (next : Service → α → Reply β) :
    r.andThen next = ⟨r.service, r.notices, r.asked, .error fault⟩ := by
  simp only [andThen, h]

theorem andThen_of_ok {a : α} (h : r.answer = .ok a) (next : Service → α → Reply β) :
    r.andThen next = ⟨(next r.service a).service, r.notices ++ (next r.service a).notices,
      r.asked ++ (next r.service a).asked, (next r.service a).answer⟩ := by
  simp only [andThen, h]

/-- What both parts of an operation lead to, in whatever way, the whole leads to. -/
theorem andThen_service {P : Service → Prop} (hfirst : P r.service)
    (hnext : ∀ a, r.answer = .ok a → P (next r.service a).service) : P (r.andThen next).service := by
  cases h : r.answer with
  | error fault =>
    rw [andThen_of_error h]
    exact hfirst
  | ok a =>
    rw [andThen_of_ok h]
    exact hnext a h

theorem andThen_service_of_kept (h : ∀ s a, (next s a).service = s) :
    (r.andThen next).service = r.service :=
  andThen_service (P := (· = r.service)) rfl fun a _ => h r.service a

theorem andThen_asked_of_kept (h : ∀ s a, (next s a).asked = []) :
    (r.andThen next).asked = r.asked := by
  cases ha : r.answer with
  | error fault => rw [andThen_of_error ha]
  | ok a => rw [andThen_of_ok ha, h, List.append_nil]

theorem mem_notices_andThen {n : Notice} (h : n ∈ r.notices) (next : Service → α → Reply β) :
    n ∈ (r.andThen next).notices := by
  cases ha : r.answer with
  | error fault =>
    rw [andThen_of_error ha]
    exact h
  | ok a =>
    rw [andThen_of_ok ha]
    exact List.mem_append_left _ h

theorem Follows.map (h : full.Follows c r) (f : α → β) : (full.map f).Follows c (r.map f) := by
  cases h with
  | heard hall hsame => exact .heard hall (by rw [hsame])
  | refused hn hrefused hanswer =>
    obtain ⟨markup, hanswer⟩ := hanswer
    refine .refused hn hrefused ⟨markup, ?_⟩
    rw [Reply.map, hanswer]
    rfl

/-- An operation of two parts is stopped where one of its parts is. -/
theorem Follows.andThen {next' : Service → α → Reply β} (h : full.Follows c r)
    (hnext : ∀ s a, (next s a).Follows c (next' s a)) :
    (full.andThen next).Follows c (r.andThen next') := by
  cases h with
  | refused hn hrefused hanswer =>
    obtain ⟨markup, hanswer⟩ := hanswer
    refine .refused (mem_notices_andThen hn next) hrefused ⟨markup, ?_⟩
    rw [andThen_of_error hanswer]
  | heard hall hsame =>
    rw [hsame]
    cases ha : full.answer with
    | error fault =>
      rw [andThen_of_error ha, andThen_of_error ha]
      exact .heard hall rfl
    | ok a =>
      rw [andThen_of_ok ha, andThen_of_ok ha]
      cases hnext full.service a with
      | heard hrest hsame => exact .heard (Console.showsAll_append.mpr ⟨hall, hrest⟩) (by rw [hsame])
      | refused hn hrefused hanswer => exact .refused (List.mem_append_right _ hn) hrefused hanswer

theorem Follows.eq (h : full.Follows c r) (hall : c.ShowsAll full.notices) : r = full := by
  cases h with
  | heard _ hsame => exact hsame
  | refused hn hrefused _ => exact absurd (hall _ hn) (by simp [hrefused])

/-- There is an answer exactly if the full reply has it and none of its notices is refused. -/
theorem Follows.answer_ok_iff (h : full.Follows c r) {a : α} :
    r.answer = .ok a ↔ c.ShowsAll full.notices ∧ full.answer = .ok a := by
  cases h with
  | heard hall hsame => simp [hall, hsame]
  | refused hn hrefused hanswer =>
    obtain ⟨markup, hanswer⟩ := hanswer
    rw [hanswer]
    refine iff_of_false nofun fun hall => ?_
    exact absurd (hall.1 _ hn) (by simp [hrefused])

end Reply

theorem FileIndex.refresh_of_clean {f : FileIndex} (h : f.dirty = false) (tools : Tools)
    (provider : ContentProvider) : f.refresh tools provider = ⟨f, false, [], none⟩ := by
  simp only [refresh, h, Bool.false_eq_true, ↓reduceIte]

/-- A refresh under a console that may refuse its warning. -/
theorem FileIndex.refresh_lenient_cases (f : FileIndex) (tools : Tools) (provider : ContentProvider) :
    (tools.console.ShowsAll (f.refresh tools.lenient provider).notices ∧
      f.refresh tools provider = f.refresh tools.lenient provider) ∨
    ∃ n ∈ (f.refresh tools.lenient provider).notices, tools.console.shows n = false ∧
      (f.refresh tools provider).fault = some (.unprintable n.markup) := by
  -- The two places where a refresh warns are alike.
  have hwarning (g : FileIndex) (n : Notice) :
      (tools.console.ShowsAll (Refresh.warning g tools.lenient.console n).notices ∧
        Refresh.warning g tools.console n = Refresh.warning g tools.lenient.console n) ∨
      ∃ m ∈ (Refresh.warning g tools.lenient.console n).notices, tools.console.shows m = false ∧
        (Refresh.warning g tools.console n).fault = some (.unprintable m.markup) := by
    cases hn : tools.console.shows n <;>
      simp [Refresh.warning, Tools.lenient_shows, Console.ShowsAll, hn]
  cases hd : f.dirty with
  | false =>
    rw [refresh_of_clean hd, refresh_of_clean hd]
    exact .inl ⟨Console.showsAll_nil _, rfl⟩
  | true =>
    simp only [refresh, hd, ↓reduceIte]
    cases provider f.identity with
    | error reason => exact hwarning f _
    | ok text =>
      have hparser : tools.lenient.parser = tools.parser := rfl
      simp only [hparser]
      rcases f.rebuild text tools.parser with fault | ⟨f', _ | failure⟩
      · exact .inl ⟨Console.showsAll_nil _, rfl⟩
      · exact .inl ⟨Console.showsAll_nil _, rfl⟩
      · exact hwarning f' _

namespace Service

variable {α : Type} {s : Service} {tools : Tools}

@[simp] theorem reply_service (s : Service) (a : α) : (s.reply a).service = s := rfl

@[simp] theorem tell_service (s : Service) (tools : Tools) (n : Notice) (a : α) :
    (s.tell tools n a).service = s := by
  unfold tell
  split <;> rfl

@[simp] theorem tell_asked (s : Service) (tools : Tools) (n : Notice) (a : α) :
    (s.tell tools n a).asked = [] := by
  unfold tell
  split <;> rfl

@[simp] theorem debug_service (s : Service) (tools : Tools) (n : Notice) (a : α) :
    (s.debug tools n a).service = s := by
  unfold debug
  split
  · exact tell_service s tools n a
  · rfl

@[simp] theorem debug_asked (s : Service) (tools : Tools) (n : Notice) (a : α) :
    (s.debug tools n a).asked = [] := by
  unfold debug
  split
  · exact tell_asked s tools n a
  · rfl

theorem reply_follows (s : Service) (c : Console) (a : α) : (s.reply a).Follows c (s.reply a) :=
  .heard (Console.showsAll_nil _) rfl

/-- The one place where a reply is cut short; all other operations are put together from it. -/
theorem tell_follows (s : Service) (tools : Tools) (n : Notice) (a : α) :
    (s.tell tools.lenient n a).Follows tools.console (s.tell tools n a) := by
  have hfull : s.tell tools.lenient n a = ⟨s, [n], [], .ok a⟩ := rfl
  rw [hfull]
  cases hn : tools.console.shows n with
  | true =>
    have hsame : s.tell tools n a = ⟨s, [n], [], .ok a⟩ := by simp [tell, hn]
    exact .heard (by simpa [Console.ShowsAll] using hn) hsame
  | false => exact .refused List.mem_cons_self hn ⟨n.markup, by simp [tell, hn]⟩

theorem debug_follows (s : Service) (tools : Tools) (n : Notice) (a : α) :
    (s.debug tools.lenient n a).Follows tools.console (s.debug tools n a) := by
  unfold debug
  split
  · exact tell_follows s tools n a
  · exact reply_follows s _ a

theorem evict_follows (s : Service) (tools : Tools) (uri : String) :
    (s.evict tools.lenient uri).Follows tools.console (s.evict tools uri) := by
  unfold evict
  dsimp only
  split
  · exact debug_follows _ tools _ true
  · exact reply_follows _ _ false

theorem closed_follows (s : Service) (tools : Tools) (uri : String) :
    (s.closed tools.lenient uri).Follows tools.console (s.closed tools uri) := by
  unfold closed
  split
  · exact (evict_follows s tools uri).map _
  · exact reply_follows s _ ()

/-- The document is stored before the warning about it, so a refused warning does not lose it. -/
theorem index_follows (s : Service) (tools : Tools) (uri : String) (text : Text) :
    (s.index tools.lenient uri text).Follows tools.console (s.index tools uri text) := by
  unfold index
  dsimp only [Tools.lenient]
  split
  · exact .heard (Console.showsAll_nil _) rfl
  · split
    · exact tell_follows _ tools _ false
    · exact reply_follows _ _ true

/-- A batch ends with the first refused warning, and the documents behind it are not stored. -/
theorem seedFrom_follows (s : Service) (tools : Tools) (count : Nat)
    (documents : List (String × Text)) :
    (s.seedFrom tools.lenient count documents).Follows tools.console
      (s.seedFrom tools count documents) := by
  induction documents generalizing s count with
  | nil => exact reply_follows s _ count
  | cons d rest ih => exact (index_follows s tools d.1 d.2).andThen fun s parsed => ih s _

/-- The file is written back before its notice is shown, on either console. -/
theorem refresh_follows (s : Service) (tools : Tools) (identity : String) :
    (s.refresh tools.lenient identity).Follows tools.console (s.refresh tools identity) := by
  -- What comes after the refresh itself is the same on both consoles, whatever the state.
  have hrebuilt (before : Nat) (s : Service) :
      (if (s.workspace.entry identity).walkCount = before then s.reply ()
        else s.debug tools.lenient
          (.rebuilt identity (s.workspace.entry identity).symbols.length) ()).Follows tools.console
      (if (s.workspace.entry identity).walkCount = before then s.reply ()
        else s.debug tools (.rebuilt identity (s.workspace.entry identity).symbols.length) ()) := by
    split
    · exact reply_follows s _ ()
    · exact debug_follows s tools _ ()
  unfold refresh Workspace.ensureFresh
  cases s.workspace.get? identity with
  | none => exact Reply.Follows.andThen (.heard (Console.showsAll_nil _) rfl) fun s _ => hrebuilt _ s
  | some f =>
    dsimp only
    rcases f.refresh_lenient_cases tools (storedText s.documents) with
      ⟨hall, hsame⟩ | ⟨n, hn, hrefused, hfault⟩
    · rw [hsame]
      generalize f.refresh tools.lenient (storedText s.documents) = r at hall
      obtain ⟨g, asked, notices, _ | fault⟩ := r
      · exact Reply.Follows.andThen (.heard hall rfl) fun s _ => hrebuilt _ s
      · exact .heard hall rfl
    · refine .refused (n := n) ?_ hrefused ⟨n.markup, ?_⟩
      · split
        · exact hn
        · exact Reply.mem_notices_andThen hn _
      · rw [hfault]

theorem refreshAll_follows (s : Service) (tools : Tools) (identities : List String) :
    (s.refreshAll tools.lenient identities).Follows tools.console (s.refreshAll tools identities) := by
  induction identities generalizing s with
  | nil => exact reply_follows s _ ()
  | cons identity rest ih => exact (refresh_follows s tools identity).andThen fun s _ => ih s

theorem query_follows (s : Service) (tools : Tools) (uri : String) (unknown : α)
    (read : FileIndex → α) :
    (s.query tools.lenient uri unknown read).Follows tools.console
      (s.query tools uri unknown read) := by
  unfold query
  dsimp only
  split
  · exact (refresh_follows s tools _).andThen fun s _ => reply_follows s _ _
  · exact reply_follows s _ unknown

theorem findDefinition_follows (s : Service) (tools : Tools) (uri : String) (p : Position) :
    (s.findDefinition tools.lenient uri p).Follows tools.console (s.findDefinition tools uri p) := by
  refine (query_follows s tools uri none _).andThen fun s occurrence => ?_
  cases occurrence with
  | none => exact reply_follows s _ []
  | some o => exact (refreshAll_follows s tools _).andThen fun s _ => debug_follows s tools _ _

/-- Every operation, on any console, is the beginning of the same operation on a lenient one. -/
theorem perform_follows (s : Service) (tools : Tools) (op : Operation) :
    (s.perform tools.lenient op).Follows tools.console (s.perform tools op) := by
  cases op with
  | opened uri text | saved uri text | changed uri text => exact reply_follows _ _ _
  | closed uri => exact (closed_follows s tools uri).map _
  | evict uri => exact (evict_follows s tools uri).map _
  | seed documents => exact (seedFrom_follows s tools 0 documents).map _
  | listSymbols uri | diagnostics uri => exact (query_follows s tools uri [] _).map _
  | findDefinition uri p => exact (findDefinition_follows s tools uri p).map _

def run (s : Service) (tools : Tools) : List Operation → Service
  | [] => s
  | op :: rest => (s.perform tools op).service.run tools rest

def answers (s : Service) (tools : Tools) : List Operation → List (Except Fault Answer)
  | [] => []
  | op :: rest => (s.perform tools op).answer :: (s.perform tools op).service.answers tools rest

def notices (s : Service) (tools : Tools) : List Operation → List Notice
  | [] => []
  | op :: rest => (s.perform tools op).notices ++ (s.perform tools op).service.notices tools rest

/-- The console refuses nothing that some operations show when nothing is refused. -/
def Heard (s : Service) (tools : Tools) (ops : List Operation) : Prop :=
  tools.console.ShowsAll (s.notices tools.lenient ops)

instance (s : Service) (tools : Tools) (ops : List Operation) : Decidable (s.Heard tools ops) :=
  inferInstanceAs (Decidable (tools.console.ShowsAll _))

theorem run_append (s : Service) (tools : Tools) (first second : List Operation) :
    s.run tools (first ++ second) = (s.run tools first).run tools second := by
  induction first generalizing s with
  | nil => rfl
  | cons op rest ih => exact ih _

/-- Whether all is heard is judged along the lenient run, which does not depend on the console. -/
theorem heard_cons {op : Operation} {rest : List Operation} :
    s.Heard tools (op :: rest) ↔ tools.console.ShowsAll (s.perform tools.lenient op).notices ∧
      (s.perform tools.lenient op).service.Heard tools rest :=
  Console.showsAll_append

theorem heard_singleton {op : Operation} :
    s.Heard tools [op] ↔ tools.console.ShowsAll (s.perform tools.lenient op).notices := by
  rw [heard_cons]
  exact and_iff_left (Console.showsAll_nil _)

theorem heard_append {first second : List Operation} : s.Heard tools (first ++ second) ↔
    s.Heard tools first ∧ (s.run tools.lenient first).Heard tools second := by
  induction first generalizing s with
  | nil => exact (and_iff_right (Console.showsAll_nil _)).symm
  | cons op rest ih => rw [List.cons_append, heard_cons, heard_cons, ih, and_assoc]; rfl

theorem Heard.perform_eq {op : Operation} {rest : List Operation} (h : s.Heard tools (op :: rest)) :
    s.perform tools op = s.perform tools.lenient op :=
  (perform_follows s tools op).eq (heard_cons.mp h).1

/-- Where nothing is refused the console makes no difference to the state. -/
theorem Heard.run_eq {ops : List Operation} (h : s.Heard tools ops) :
    s.run tools ops = s.run tools.lenient ops := by
  induction ops generalizing s with
  | nil => rfl
  | cons op rest ih =>
    rw [run, run, h.perform_eq]
    exact ih (heard_cons.mp h).2

theorem Heard.answers_eq {ops : List Operation} (h : s.Heard tools ops) :
    s.answers tools ops = s.answers tools.lenient ops := by
  induction ops generalizing s with
  | nil => rfl
  | cons op rest ih => rw [answers, answers, h.perform_eq, ih (heard_cons.mp h).2]

/-- Where something is refused an operation ends without an answer. -/
theorem exists_error_of_not_heard {ops : List Operation} (h : ¬ s.Heard tools ops) :
    ∃ fault, .error fault ∈ s.answers tools ops := by
  induction ops generalizing s with
  | nil => exact absurd (Console.showsAll_nil _) h
  | cons op rest ih =>
    cases perform_follows s tools op with
    | refused _ _ hanswer =>
      obtain ⟨markup, hanswer⟩ := hanswer
      exact ⟨_, List.mem_cons.mpr (.inl hanswer.symm)⟩
    | heard hall hsame =>
      have hrest : ¬ (s.perform tools.lenient op).service.Heard tools rest :=
        fun hrest => h (heard_cons.mpr ⟨hall, hrest⟩)
      obtain ⟨fault, hfault⟩ := ih hrest
      refine ⟨fault, List.mem_cons_of_mem _ ?_⟩
      rw [hsame]
      exact hfault

end Service

end LuaSymbols
