import GloryHole.Go.Sort

/-!
# Client profiles and groups

The tables `client_profiles` and `client_groups` with the statements on them.  The foreign key
between them is declared, but SQLite does not enforce it unless it is told to, which the
program does not do: a profile can have a group that is not in the other table.
-/

namespace GloryHole.Storage

open Go

structure ClientProfile where
  clientIP : GoString
  displayName : GoString := []
  notes : GoString := []
  groupName : GoString := []
  deriving DecidableEq

structure ProfileRow where
  clientIP : GoString
  displayName : Option GoString
  notes : Option GoString
  groupName : Option GoString
  deriving DecidableEq

structure ClientGroup where
  name : GoString
  description : GoString := []
  color : GoString := []
  deriving DecidableEq

structure GroupRow where
  name : GoString
  description : Option GoString
  color : Option GoString
  deriving DecidableEq

def nullify (value : GoString) : Option GoString :=
  if trimSpace value = [] then none else some (trimSpace value)

def coalesce (column : Option GoString) : GoString := column.getD []

/-- `INSERT … ON CONFLICT(key) DO UPDATE` of all columns. -/
def upsert {α : Type} (key : α → GoString) (rows : List α) (row : α) : List α :=
  if key row ∈ rows.map key then rows.map fun r => if key r = key row then row else r
  else rows ++ [row]

section

variable {α : Type} {key : α → GoString} {rows : List α} {row r : α}

theorem mem_upsert (h : r ∈ upsert key rows row) : r = row ∨ r ∈ rows := by
  unfold upsert at h
  split at h
  · obtain ⟨r', hr', rfl⟩ := List.mem_map.mp h
    split
    · exact Or.inl rfl
    · exact Or.inr hr'
  · rcases List.mem_append.mp h with h | h
    · exact Or.inr h
    · exact Or.inl (List.mem_singleton.mp h)

theorem nodup_upsert (h : (rows.map key).Nodup) : ((upsert key rows row).map key).Nodup := by
  unfold upsert
  split
  · have hkeys : (key ∘ fun r => if key r = key row then row else r) = key := by
      funext r
      simp only [Function.comp_apply]
      split
      · rename_i heq
        exact heq.symm
      · rfl
    rw [List.map_map, hkeys]
    exact h
  · rename_i hnew
    rw [List.map_append, List.nodup_append]
    refine ⟨h, by simp, ?_⟩
    rintro k hk _ hrow rfl
    rw [List.map_cons, List.map_nil, List.mem_singleton] at hrow
    exact hnew (hrow ▸ hk)

end

/-- The two tables.  The keys are unique, and no statement stores an empty group name. -/
structure ClientTables where
  profiles : List ProfileRow
  groups : List GroupRow
  ips_nodup : (profiles.map (·.clientIP)).Nodup
  names_nodup : (groups.map (·.name)).Nodup
  group_ne_nil : ∀ p ∈ profiles, p.groupName ≠ some []

namespace ClientTables

def empty : ClientTables := ⟨[], [], by simp, by simp, by simp⟩

def profileRow (p : ClientProfile) : ProfileRow where
  clientIP := p.clientIP
  displayName := nullify p.displayName
  notes := nullify p.notes
  groupName := nullify p.groupName

theorem nullify_ne_nil (value : GoString) : nullify value ≠ some [] := by
  unfold nullify
  split
  · simp
  · rename_i h
    simpa using h

def updateClientProfile (t : ClientTables) (p : ClientProfile) : ClientTables where
  profiles := upsert (·.clientIP) t.profiles (profileRow p)
  groups := t.groups
  ips_nodup := nodup_upsert t.ips_nodup
  names_nodup := t.names_nodup
  group_ne_nil := by
    intro r hr
    rcases mem_upsert hr with rfl | hr
    · exact nullify_ne_nil p.groupName
    · exact t.group_ne_nil r hr

def listClientProfiles (t : ClientTables) : List ClientProfile :=
  (t.profiles.insertionSort fun a b => a.clientIP ≤ b.clientIP).map fun r =>
    { clientIP := r.clientIP
      displayName := coalesce r.displayName
      notes := coalesce r.notes
      groupName := coalesce r.groupName }

def clearGroup (name : GoString) (r : ProfileRow) : ProfileRow :=
  if r.groupName = some name then { r with groupName := none } else r

theorem clearGroup_clientIP (name : GoString) (r : ProfileRow) :
    (clearGroup name r).clientIP = r.clientIP := by
  unfold clearGroup
  split <;> rfl

/-- `DeleteClientGroup`: the two statements in a transaction, which is rolled back (`none`) if
there is no such group. -/
def deleteClientGroup (t : ClientTables) (name : GoString) : Option ClientTables :=
  if name ∈ t.groups.map (·.name) then
    some
      { profiles := t.profiles.map (clearGroup name)
        groups := t.groups.filter (·.name ≠ name)
        ips_nodup := by
          rw [List.map_map]
          have hips : ((·.clientIP) ∘ clearGroup name) = fun r : ProfileRow => r.clientIP := by
            funext r
            exact clearGroup_clientIP name r
          rw [hips]
          exact t.ips_nodup
        names_nodup := t.names_nodup.sublist (List.filter_sublist.map _)
        group_ne_nil := by
          intro r hr
          obtain ⟨r', hr', rfl⟩ := List.mem_map.mp hr
          unfold clearGroup
          split
          · simp
          · exact t.group_ne_nil r' hr' }
  else none

def upsertClientGroup (t : ClientTables) (g : ClientGroup) : ClientTables where
  profiles := t.profiles
  groups := upsert (·.name) t.groups ⟨g.name, nullify g.description, nullify g.color⟩
  ips_nodup := t.ips_nodup
  names_nodup := nodup_upsert t.names_nodup
  group_ne_nil := t.group_ne_nil

end ClientTables

end GloryHole.Storage
