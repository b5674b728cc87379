import LeafOS.Fs.Ext2.Directories
import LeafOS.Fs.Initrd.Names
import LeafOS.Shell.Words

namespace leafos.shell

open leafos.fs

/-- A path as the names on it, joined by single slashes. -/
def joined (stack : List (List UInt8)) : List UInt8 := [SLASH].intercalate stack

/-- The names on the path once a component is processed. -/
def stack_step (stack : List (List UInt8)) (component : List UInt8) : List (List UInt8) :=
  if component = [] ∨ component = DOT then stack
  else if component = DOT_DOT then stack.dropLast
  else stack ++ [component]

/-- A component that names something. -/
def Pushed (component : List UInt8) : Prop := component ≠ [] ∧ component ≠ DOT ∧ component ≠ DOT_DOT

/-- A pushed component can stay: it is safe, and the path with it is not too long. -/
def Accepted (stack : List (List UInt8)) (component : List UInt8) : Prop :=
  Pushed component → safe_component component = true ∧ (joined (stack ++ [component])).length ≤ PATH_CAPACITY

/-- Every component of an input can stay when its turn comes. -/
def AllAccepted (stack components : List (List UInt8)) : Prop :=
  ∀ before component after, components = before ++ component :: after →
    Accepted (before.foldl stack_step stack) component

/-- A path without empty components, `.` and `..`, all of whose names are safe. -/
structure Normalised (path : List UInt8) (stack : List (List UInt8)) : Prop where
  path_eq : path = joined stack
  safe : ∀ component ∈ stack, safe_component component = true
  length_le : path.length ≤ PATH_CAPACITY

section Joining

variable {stack : List (List UInt8)} {component : List UInt8}

theorem joined_concat (hstack : stack ≠ []) (component : List UInt8) :
    joined (stack ++ [component]) = joined stack ++ SLASH :: component := by
  induction stack with
  | nil => exact absurd rfl hstack
  | cons first rest ih =>
    cases rest with
    | nil => simp [joined]
    | cons second rest =>
      have hrest := ih (List.cons_ne_nil _ _)
      simp only [joined, List.cons_append, List.intercalate_cons_cons] at hrest ⊢
      rw [hrest]
      simp

theorem joined_eq_nil_iff (hsafe : ∀ component ∈ stack, safe_component component = true) :
    joined stack = [] ↔ stack = [] := by
  refine ⟨fun hjoined => ?_, fun hstack => by rw [hstack]; rfl⟩
  cases stack with
  | nil => rfl
  | cons first rest =>
    have hfirst := (safe_component_bytes (hsafe first List.mem_cons_self)).1
    cases rest with
    | nil =>
      rw [joined, List.intercalate_singleton] at hjoined
      exact absurd hjoined hfirst
    | cons second rest =>
      simp only [joined, List.intercalate_cons_cons] at hjoined
      simp [hfirst] at hjoined

theorem joined_push (hsafe : ∀ component ∈ stack, safe_component component = true) (component : List UInt8) :
    joined stack ++ (if (joined stack).isEmpty then [] else [SLASH]) ++ component = joined (stack ++ [component]) := by
  by_cases hstack : stack = []
  · subst hstack
    simp [joined]
  · have hne : joined stack ≠ [] := fun hjoined => hstack ((joined_eq_nil_iff hsafe).mp hjoined)
    rw [joined_concat hstack, if_neg (by simpa using hne), List.append_assoc, List.singleton_append]

theorem joined_length_le (stack rest : List (List UInt8)) : (joined stack).length ≤ (joined (stack ++ rest)).length := by
  induction rest generalizing stack with
  | nil => rw [List.append_nil]
  | cons name rest ih =>
    have hname : (joined stack).length ≤ (joined (stack ++ [name])).length := by
      by_cases hstack : stack = []
      · rw [hstack]
        exact Nat.zero_le _
      · rw [joined_concat hstack, List.length_append]
        exact Nat.le_add_right _ _
    have hrest := ih (stack ++ [name])
    rw [List.append_assoc, List.singleton_append] at hrest
    exact hname.trans hrest

theorem rdropWhile_name (hsafe : safe_component component = true) :
    component.rdropWhile (· != SLASH) = [] ∧
      ∀ path, (path ++ SLASH :: component).rdropWhile (· != SLASH) = path ++ [SLASH] := by
  have hall : ∀ byte ∈ component.reverse, (byte != SLASH) = true := fun byte hbyte =>
    bne_iff_ne.mpr ((safe_component_bytes hsafe).2 byte (List.mem_reverse.mp hbyte)).1
  refine ⟨?_, fun path => ?_⟩
  · rw [List.rdropWhile, List.dropWhile_eq_nil_iff.mpr hall, List.reverse_nil]
  · rw [List.rdropWhile, List.reverse_append, List.reverse_cons, List.append_assoc, List.dropWhile_append_of_pos hall,
      List.singleton_append, List.dropWhile_cons_of_neg (by simp), List.reverse_cons, List.reverse_reverse]

theorem joined_pop (hsafe : ∀ component ∈ stack, safe_component component = true) :
    ((joined stack).rdropWhile (· != SLASH)).dropLast = joined stack.dropLast := by
  rcases List.eq_nil_or_concat' stack with rfl | ⟨init, last, rfl⟩
  · rfl
  · obtain ⟨hname, hpath⟩ := rdropWhile_name (hsafe last (List.mem_append_right _ List.mem_cons_self))
    rw [List.dropLast_concat]
    by_cases hinit : init = []
    · subst hinit
      rw [joined, List.nil_append, List.intercalate_singleton, hname]
      rfl
    · rw [joined_concat hinit, hpath, List.dropLast_concat]

end Joining

section Loop

variable {stack : List (List UInt8)} {component : List UInt8}

/-- The test of the loop on a component is that of the initrd. -/
theorem safe_component_of_pushed (hpushed : Pushed component) : safe_component component =
    !(100 < component.length || !component.all fun byte => is_ascii_alphanumeric byte || [46, 95, 45].contains byte) := by
  obtain ⟨hne, hdot, hdots⟩ := hpushed
  rw [Bool.eq_iff_iff]
  simp [safe_component, hne, hdot, hdots, MAX_COMPONENT_LEN, or_assoc]
  exact fun _ => decide_eq_true_iff

theorem stack_step_of_pushed (hpushed : Pushed component) : stack_step stack component = stack ++ [component] := by
  rw [stack_step, if_neg (by simp [hpushed.1, hpushed.2.1]), if_neg hpushed.2.2]

theorem pushed_of_safe (hsafe : safe_component component = true) : Pushed component := by
  simp only [safe_component, Bool.and_eq_true, bne_iff_ne] at hsafe
  exact ⟨by simpa using hsafe.1.1.1.1, hsafe.1.1.2, hsafe.1.2⟩

section Stacks

variable (hstack : Normalised (joined stack) stack) {path : List UInt8} {components : List (List UInt8)}
include hstack

theorem Normalised.step (haccepted : Accepted stack component) :
    Normalised (joined (stack_step stack component)) (stack_step stack component) := by
  by_cases hpushed : Pushed component
  · obtain ⟨hsafe, hlength⟩ := haccepted hpushed
    rw [stack_step_of_pushed hpushed]
    refine ⟨rfl, ?_, hlength⟩
    rw [List.forall_mem_append]
    exact ⟨hstack.safe, by simpa using hsafe⟩
  · unfold stack_step
    split_ifs with hsame hparent
    · exact hstack
    · refine ⟨rfl, fun name hname => hstack.safe name (List.dropLast_subset stack hname), ?_⟩
      have hpop := (List.rdropWhile_prefix (· != SLASH) (joined stack)).length_le
      rw [← joined_pop hstack.safe, List.length_dropLast]
      exact (Nat.sub_le _ _).trans (hpop.trans hstack.length_le)
    · exact absurd ⟨fun hnil => hsame (.inl hnil), fun hdot => hsame (.inr hdot), hparent⟩ hpushed

/-- One turn of the loop does to the path what the component does to the names on it. -/
theorem resolve_component_eq_some_iff :
    resolve_component (joined stack) component = some path ↔
      Accepted stack component ∧ path = joined (stack_step stack component) := by
  by_cases hpushed : Pushed component
  · obtain ⟨hne, hdot, hdots⟩ := hpushed
    have hturn : resolve_component (joined stack) component =
        if safe_component component then
          if PATH_CAPACITY < (joined (stack ++ [component])).length then none else some (joined (stack ++ [component]))
        else none := by
      rw [resolve_component, if_neg (by simp [hne, hdot]), if_neg (by simpa using hdots), joined_push hstack.safe,
        safe_component_of_pushed ⟨hne, hdot, hdots⟩]
      cases (_ || _ : Bool) <;> rfl
    rw [hturn, stack_step_of_pushed ⟨hne, hdot, hdots⟩, Accepted]
    split_ifs with hname hlong
    · refine ⟨fun hnone => ?_, fun haccepted => absurd (haccepted.1 ⟨hne, hdot, hdots⟩).2 (by omega)⟩
      cases hnone
    · rw [Option.some.injEq]
      exact ⟨fun hpath => ⟨fun _ => ⟨hname, by omega⟩, hpath.symm⟩, fun haccepted => haccepted.2.symm⟩
    · refine ⟨fun hnone => ?_, fun haccepted => absurd (haccepted.1 ⟨hne, hdot, hdots⟩).1 hname⟩
      cases hnone
  · have hturn : resolve_component (joined stack) component = some (joined (stack_step stack component)) := by
      by_cases hsame : component = [] ∨ component = DOT
      · rw [resolve_component, stack_step, if_pos (by simpa using hsame), if_pos hsame]
      · obtain rfl : component = DOT_DOT := by
          by_contra hparent
          exact hpushed ⟨fun hnil => hsame (.inl hnil), fun hdot => hsame (.inr hdot), hparent⟩
        exact congrArg some (joined_pop hstack.safe)
    rw [hturn, Option.some.injEq]
    exact ⟨fun hpath => ⟨fun hpush => absurd hpush hpushed, hpath.symm⟩, fun haccepted => haccepted.2.symm⟩

/-- The loop returns a path when every component is accepted where it stands. -/
theorem resolve_components_eq_some_iff :
    components.foldlM resolve_component (joined stack) = some path ↔
      AllAccepted stack components ∧ path = joined (components.foldl stack_step stack) := by
  induction components generalizing stack with
  | nil =>
    have hnone : AllAccepted stack [] := fun before component after hsplit => by simp at hsplit
    simp [hnone, eq_comm]
  | cons component rest ih =>
    rw [List.foldlM_cons, Option.bind_eq_bind, Option.bind_eq_some_iff, List.foldl_cons]
    constructor
    · rintro ⟨middle, hturn, hrest⟩
      obtain ⟨haccepted, rfl⟩ := (resolve_component_eq_some_iff hstack).mp hturn
      obtain ⟨hall, rfl⟩ := (ih (hstack.step haccepted)).mp hrest
      refine ⟨?_, rfl⟩
      rintro (_ | ⟨first, before⟩) found after hsplit
      · cases hsplit
        exact haccepted
      · cases hsplit
        exact hall before found after rfl
    · rintro ⟨hall, rfl⟩
      have haccepted : Accepted stack component := hall [] component rest rfl
      refine ⟨_, (resolve_component_eq_some_iff hstack).mpr ⟨haccepted, rfl⟩, ?_⟩
      refine (ih (hstack.step haccepted)).mpr ⟨fun before found after hsplit => ?_, rfl⟩
      exact hall (component :: before) found after (by rw [hsplit]; rfl)

theorem Normalised.steps (haccepted : AllAccepted stack components) :
    Normalised (joined (components.foldl stack_step stack)) (components.foldl stack_step stack) := by
  induction components generalizing stack with
  | nil => exact hstack
  | cons component rest ih =>
    exact ih (hstack.step (haccepted [] component rest rfl)) fun before found after hsplit =>
      haccepted (component :: before) found after (by rw [hsplit]; rfl)

end Stacks

/-- Safe names are pushed one after the other. -/
theorem foldl_stack_step_names {names : List (List UInt8)} (hnames : ∀ name ∈ names, safe_component name = true) :
    names.foldl stack_step stack = stack ++ names := by
  induction names generalizing stack with
  | nil => exact (List.append_nil _).symm
  | cons name rest ih =>
    obtain ⟨hname, hrest⟩ := List.forall_mem_cons.mp hnames
    rw [List.foldl_cons, stack_step_of_pushed (pushed_of_safe hname), ih hrest, List.append_assoc,
      List.singleton_append]

end Loop

/-- The names on the path that a relative input starts from; an input with a leading slash starts from none. -/
def start_of (stack : List (List UInt8)) (input : List UInt8) : List (List UInt8) :=
  if input.head? == some SLASH then [] else stack

section Resolving

variable {current input path : List UInt8} {stack : List (List UInt8)}

theorem start_of_normalised (hcurrent : Normalised current stack) (input : List UInt8) :
    Normalised (joined (start_of stack input)) (start_of stack input) := by
  unfold start_of
  split_ifs
  · exact ⟨rfl, fun name hname => absurd hname List.not_mem_nil, Nat.zero_le _⟩
  · exact hcurrent.path_eq ▸ hcurrent

theorem resolve_path_eq_some_iff (hcurrent : Normalised current stack) :
    resolve_path current input = some path ↔ AllAccepted (start_of stack input) (input.splitOn SLASH) ∧
      path = joined ((input.splitOn SLASH).foldl stack_step (start_of stack input)) := by
  rw [← resolve_components_eq_some_iff (start_of_normalised hcurrent input), resolve_path, start_of]
  split_ifs with hroot hlong
  · rfl
  · exact absurd hcurrent.length_le (by omega)
  · rw [← hcurrent.path_eq]
    rfl

theorem Normalised.splitOn (hpath : Normalised path stack) (hnone : stack ≠ []) : path.splitOn SLASH = stack := by
  rw [hpath.path_eq]
  apply List.splitOn_intercalate SLASH _ hnone
  exact fun name hname hslash => ((safe_component_bytes (hpath.safe name hname)).2 _ hslash).1 rfl

theorem Normalised.safe_path (hpath : Normalised path stack) : safe_path path true = true := by
  by_cases hnone : stack = []
  · rw [hpath.path_eq, hnone]
    rfl
  · rw [safe_path_true, safe_path_false, hpath.splitOn hnone, List.all_eq_true.mpr hpath.safe, Bool.or_true]

theorem ext2_safe_component {name : List UInt8} (hsafe : safe_component name = true) :
    ext2.safe_component name = true := by
  simp only [safe_component, MAX_COMPONENT_LEN, Bool.and_eq_true] at hsafe
  simp only [ext2.safe_component, Bool.and_eq_true, decide_eq_true_eq]
  exact ⟨⟨⟨⟨hsafe.1.1.1.1, (of_decide_eq_true hsafe.1.1.1.2).trans (by decide)⟩, hsafe.1.1.2⟩, hsafe.1.2⟩, hsafe.2⟩

/-- Resolving a normalised path from the root returns it. -/
theorem resolve_path_rooted (hpath : Normalised path stack) (current : List UInt8) :
    resolve_path current (SLASH :: path) = some path := by
  have hempty : Normalised [] [] := ⟨rfl, fun name hname => absurd hname List.not_mem_nil, Nat.zero_le _⟩
  have hroot : resolve_path current (SLASH :: path) = resolve_path [] (SLASH :: path) := rfl
  have hsplit : (SLASH :: path).splitOn SLASH = [] :: path.splitOn SLASH := List.splitOn_append_cons_self [] path
  have hstart : start_of [] (SLASH :: path) = [] := rfl
  rw [hroot, resolve_path_eq_some_iff hempty, hsplit, hstart, List.foldl_cons, show stack_step [] [] = [] from rfl]
  by_cases hnone : stack = []
  · obtain rfl : path = [] := by rw [hpath.path_eq, hnone]; rfl
    refine ⟨fun before component after hfound hpushed => absurd ?_ hpushed.1, rfl⟩
    have hmem : component ∈ [[], []] := hfound ▸ List.mem_append_right before List.mem_cons_self
    simpa using hmem
  · rw [hpath.splitOn hnone, foldl_stack_step_names hpath.safe]
    refine ⟨?_, hpath.path_eq⟩
    rintro (_ | ⟨first, before⟩) component after hfound hpushed
    · cases hfound
      exact absurd rfl hpushed.1
    · rw [List.cons_append] at hfound
      obtain ⟨rfl, rfl⟩ := List.cons.inj hfound
      have hbefore : ∀ name ∈ before, safe_component name = true := fun name hname =>
        hpath.safe name (List.mem_append_left _ hname)
      have hle := joined_length_le (before ++ [component]) after
      rw [List.append_assoc, List.singleton_append, ← hpath.path_eq] at hle
      refine ⟨hpath.safe component (List.mem_append_right _ List.mem_cons_self), ?_⟩
      rw [List.foldl_cons, show stack_step [] [] = [] from rfl, foldl_stack_step_names hbefore]
      exact hle.trans hpath.length_le

end Resolving

/-- Resolving a path processes its components one after the other, on the names of the current directory or
on none. -/
theorem resolve_path_normalises {current : List UInt8} {stack : List (List UInt8)} (hcurrent : Normalised current stack) :
    (∀ input path, resolve_path current input = some path →
      let names := (input.splitOn SLASH).foldl stack_step (start_of stack input)
      Normalised path names ∧ safe_path path true = true ∧ ∀ name ∈ names, ext2.safe_component name = true) ∧
    (∀ input, resolve_path current input = none ↔ ∃ before component after,
      input.splitOn SLASH = before ++ component :: after ∧ Pushed component ∧
        (safe_component component = false ∨
          PATH_CAPACITY < (joined (before.foldl stack_step (start_of stack input) ++ [component])).length)) ∧
    (∀ first second middle left whole, first ≠ [] → second.head? ≠ some SLASH →
      resolve_path current first = some middle → resolve_path middle second = some left →
      resolve_path current (first ++ SLASH :: second) = some whole → left = whole) ∧
    ∀ input path other, resolve_path current input = some path → resolve_path other (SLASH :: path) = some path := by
  have hresolved : ∀ input path, resolve_path current input = some path →
      Normalised path ((input.splitOn SLASH).foldl stack_step (start_of stack input)) := by
    intro input path hpath
    obtain ⟨haccepted, rfl⟩ := (resolve_path_eq_some_iff hcurrent).mp hpath
    exact (start_of_normalised hcurrent input).steps haccepted
  refine ⟨fun input path hpath => ?_, fun input => ?_, ?_, fun input path other hpath => ?_⟩
  · have hnormalised := hresolved input path hpath
    refine ⟨hnormalised, hnormalised.safe_path, fun name hname => ext2_safe_component (hnormalised.safe name hname)⟩
  · constructor
    · intro hnone
      by_contra hrefused
      have haccepted : AllAccepted (start_of stack input) (input.splitOn SLASH) := by
        intro before component after hsplit hpushed
        by_contra hbad
        refine hrefused ⟨before, component, after, hsplit, hpushed, ?_⟩
        rwa [not_and_or, Bool.not_eq_true, Nat.not_le] at hbad
      rw [(resolve_path_eq_some_iff hcurrent).mpr ⟨haccepted, rfl⟩] at hnone
      cases hnone
    · rintro ⟨before, component, after, hsplit, hpushed, hbad⟩
      rw [Option.eq_none_iff_forall_ne_some]
      intro path hpath
      obtain ⟨hsafe, hlength⟩ := ((resolve_path_eq_some_iff hcurrent).mp hpath).1 before component after hsplit hpushed
      obtain hbad | hbad := hbad
      · rw [hbad] at hsafe
        cases hsafe
      · omega
  · intro first second middle left whole hfirst hsecond hmiddle hleft hwhole
    have hnormalised := hresolved first middle hmiddle
    have hrelative : start_of (((first.splitOn SLASH).foldl stack_step (start_of stack first))) second = _ :=
      if_neg (by simpa using hsecond)
    have hhead : start_of stack (first ++ SLASH :: second) = start_of stack first := by
      cases first with
      | nil => exact absurd rfl hfirst
      | cons byte rest => rfl
    rw [((resolve_path_eq_some_iff hnormalised).mp hleft).2, ((resolve_path_eq_some_iff hcurrent).mp hwhole).2, hrelative,
      hhead, List.splitOn_append_cons_self, List.foldl_append]
  · exact resolve_path_rooted (hresolved input path hpath) other

/-- From `d`, the input `../..//a/./b` leads to `a/b`. -/
theorem resolve_path_normalises_sample :
    let input : List UInt8 := [46, 46, 47, 46, 46, 47, 47, 97, 47, 46, 47, 98]
    resolve_path [100] input = some [97, 47, 98] ∧ safe_path [97, 47, 98] true = true ∧
      resolve_path [100] [47, 97, 47, 98] = some [97, 47, 98] := by
  have hcurrent : Normalised [100] [[100]] := ⟨rfl, by decide, by decide⟩
  have hresolved : resolve_path [100] [46, 46, 47, 46, 46, 47, 47, 97, 47, 46, 47, 98] = some [97, 47, 98] := by
    decide
  obtain ⟨hsome, -, -, hrooted⟩ := resolve_path_normalises hcurrent
  exact ⟨hresolved, (hsome _ _ hresolved).2.1, hrooted _ _ [100] hresolved⟩

end leafos.shell
