import LeafOS.Tasking.EndCounts

namespace leafos.tasking.scheduler

open leafos.tasking.fd Prog

section Private

variable {held : FileDescriptor → Nat} {fds : FdTable} {objects : Objects} (fd_mappings : List FdMapping)
  (fd_closes : List Nat)

/-- The calls of the first loop of `create_user_task`. -/
def map_calls : List FdMapping → FdTable → List FdCall
  | [], _ => []
  | mapping :: rest, fds =>
    if source : mapping.source < MAX_FDS then
      if target : mapping.target < MAX_FDS then
        match fds ⟨mapping.source, source⟩ with
        | none => []
        | some descriptor =>
          .clone descriptor :: drops (fds ⟨mapping.target, target⟩) ++
            map_calls rest (Function.update fds ⟨mapping.target, target⟩ (some descriptor))
      else
        []
    else
      []

/-- The calls of the second loop. -/
def source_calls : List FdMapping → FdTable → List FdCall
  | [], _ => []
  | mapping :: rest, fds =>
    if mapping.source ≠ mapping.target then
      if bound : mapping.source < MAX_FDS then
        drops (fds ⟨mapping.source, bound⟩) ++
          source_calls rest (Function.update fds ⟨mapping.source, bound⟩ none)
      else
        []
    else
      source_calls rest fds

/-- The calls of the third loop. -/
def requested_calls : List Nat → FdTable → List FdCall
  | [], _ => []
  | fd_number :: rest, fds =>
    if bound : fd_number < MAX_FDS then
      drops (fds ⟨fd_number, bound⟩) ++ requested_calls rest (Function.update fds ⟨fd_number, bound⟩ none)
    else
      []

/-- The calls that follow a program if it succeeds. -/
def calls_after (program : Prog (FdTable × Objects) SchedulerError Unit) (calls : FdTable × Objects → List FdCall)
    (state : FdTable × Objects) : List FdCall :=
  match program state with
  | (.ok _, after) => calls after
  | _ => []

def rearrange_calls (fd_mappings : List FdMapping) (fd_closes : List Nat) (state : FdTable × Objects) : List FdCall :=
  map_calls fd_mappings state.1 ++ calls_after (map_descriptors fd_mappings) (fun middle =>
    source_calls fd_mappings middle.1 ++ calls_after (close_sources fd_mappings)
      (fun last => requested_calls fd_closes last.1) middle) state

/-- A program on a private table makes the given calls, all of them exact, and the pipes
go on counting what the table holds on top of what others hold. -/
def Records (calls : FdTable × Objects → List FdCall) (program : Prog (FdTable × Objects) SchedulerError Unit) : Prop :=
  ∀ (held : FileDescriptor → Nat) (state : FdTable × Objects),
    state.2.Counts (fun descriptor => held descriptor + ends state.1 descriptor) →
    Settles (calls state) state.2 (program state).2.2 ∧
      (program state).2.2.Counts fun descriptor => held descriptor + ends (program state).2.1 descriptor

theorem Records.bind {first second : FdTable × Objects → List FdCall}
    {program next : Prog (FdTable × Objects) SchedulerError Unit} (hfirst : Records first program)
    (hsecond : Records second next) :
    Records (fun state => first state ++ calls_after program second state) (program >>= fun _ => next) := by
  intro held state hcounts
  obtain ⟨hsettles, hmiddle⟩ := hfirst held state hcounts
  simp only [calls_after, bind_apply]
  generalize program state = result at hsettles hmiddle
  rcases result with ⟨_ | _ | _, middle⟩
  · obtain ⟨hrest, hdone⟩ := hsecond held middle hmiddle
    exact ⟨hsettles.append hrest, hdone⟩
  all_goals exact ⟨hsettles.append (.nil _), hmiddle⟩

theorem take_and_close_counts
    (hcounts : objects.Counts fun descriptor => held descriptor + ends fds descriptor) (index : Fin MAX_FDS) :
    Settles (drops (fds index)) objects (close_slot (fds index) objects) ∧
      (close_slot (fds index) objects).Counts fun descriptor =>
        held descriptor + ends (Function.update fds index none) descriptor := by
  refine Objects.Counts.close_slot fun descriptor hend => (hcounts descriptor hend).trans ?_
  have hends := ends_update fds index none descriptor
  simp only [tally, reduceCtorEq, if_false] at hends ⊢
  omega

/-- A slot of the table is overwritten with a clone of another one. -/
theorem replace_counts
    (hcounts : objects.Counts fun descriptor => held descriptor + ends fds descriptor) {source : Fin MAX_FDS}
    {descriptor : FileDescriptor} (hsource : fds source = some descriptor) (target : Fin MAX_FDS) :
    Settles (.clone descriptor :: drops (fds target)) objects (close_slot (fds target) (descriptor.clone objects)) ∧
      (close_slot (fds target) (descriptor.clone objects)).Counts fun other =>
        held other + ends (Function.update fds target (some descriptor)) other := by
  have hheld : 0 < held descriptor + ends fds descriptor := by
    have hle := tally_le_ends fds source descriptor
    simp only [tally, hsource, if_true] at hle
    omega
  have hready : (descriptor.clone objects).Counts fun other =>
      (held other + ends (Function.update fds target (some descriptor)) other) + tally (fds target) other := by
    intro other hend
    refine (hcounts.clone hheld other hend).trans ?_
    have hends := ends_update fds target (some descriptor) other
    dsimp only
    omega
  obtain ⟨hsettles, hclosed⟩ := hready.close_slot
  exact ⟨.append (.clone descriptor objects) hsettles, hclosed⟩

theorem map_descriptors_records :
    Records (fun state => map_calls fd_mappings state.1) (map_descriptors fd_mappings) := by
  induction fd_mappings with
  | nil => exact fun held state hcounts => ⟨.nil _, hcounts⟩
  | cons mapping rest ih =>
    rintro held ⟨fds, objects⟩ hcounts
    simp only [map_calls, map_descriptors]
    by_cases bounds : mapping.source < MAX_FDS ∧ mapping.target < MAX_FDS
    · rw [dif_pos bounds, dif_pos bounds.1, dif_pos bounds.2]
      simp only [bind_apply, get_apply]
      cases hsource : fds ⟨mapping.source, bounds.1⟩ with
      | none => exact ⟨.nil _, hcounts⟩
      | some descriptor =>
        simp only [okOr_some, set_apply]
        obtain ⟨hcloned, hreplaced⟩ := replace_counts hcounts hsource ⟨mapping.target, bounds.2⟩
        obtain ⟨hrest, hdone⟩ := ih held (_, _) hreplaced
        exact ⟨hcloned.append hrest, hdone⟩
    · rw [dif_neg bounds]
      split_ifs with source target
      · exact absurd ⟨source, target⟩ bounds
      · exact ⟨.nil _, hcounts⟩
      · exact ⟨.nil _, hcounts⟩

theorem close_sources_records :
    Records (fun state => source_calls fd_mappings state.1) (close_sources fd_mappings) := by
  induction fd_mappings with
  | nil => exact fun held state hcounts => ⟨.nil _, hcounts⟩
  | cons mapping rest ih =>
    rintro held ⟨fds, objects⟩ hcounts
    unfold source_calls close_sources
    split
    · split
      · rename_i bound
        obtain ⟨hsettles, hclosed⟩ := take_and_close_counts hcounts ⟨mapping.source, bound⟩
        obtain ⟨hrest, hdone⟩ := ih held (_, _) hclosed
        exact ⟨hsettles.append hrest, hdone⟩
      · exact ⟨.nil _, hcounts⟩
    · exact ih held _ hcounts

theorem close_requested_records :
    Records (fun state => requested_calls fd_closes state.1) (close_requested fd_closes) := by
  induction fd_closes with
  | nil => exact fun held state hcounts => ⟨.nil _, hcounts⟩
  | cons fd_number rest ih =>
    rintro held ⟨fds, objects⟩ hcounts
    unfold requested_calls close_requested
    split
    · rename_i bound
      obtain ⟨hsettles, hclosed⟩ := take_and_close_counts hcounts ⟨fd_number, bound⟩
      obtain ⟨hrest, hdone⟩ := ih held (_, _) hclosed
      exact ⟨hsettles.append hrest, hdone⟩
    · exact ⟨.nil _, hcounts⟩

theorem rearrange_descriptors_records :
    Records (rearrange_calls fd_mappings fd_closes) (rearrange_descriptors fd_mappings fd_closes) :=
  (map_descriptors_records fd_mappings).bind
    ((close_sources_records fd_mappings).bind (close_requested_records fd_closes))

end Private

end leafos.tasking.scheduler
