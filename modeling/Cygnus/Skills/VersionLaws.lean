import Cygnus.Skills.Versions

namespace Cygnus.Skills

open Access Result Storage

section Paths

theorem not_mem_toString {c : Char} (hc : c.isDigit = false) (n : Nat) :
    c ∉ (toString n).toList := by
  intro h
  rw [Nat.toString_eq_repr, Nat.toList_repr] at h
  rw [Nat.isDigit_of_mem_toDigits (by decide) (by decide) h] at hc
  cases hc

theorem toString_injective : Function.Injective (toString : Nat → String) := by
  intro m n h
  have hm := Text.parseInt_toString m
  rw [h, Text.parseInt_toString] at hm
  exact_mod_cast (Option.some.inj hm).symm

theorem toList_versionPath (skillId : Uuid) (number : Nat) :
    (versionPath skillId number).toList = "skills/".toList ++ (skillId.text.toList ++
      '/' :: ("versions/".toList ++ ((toString number).toList ++ '/' :: []))) := by
  simp only [versionPath, String.toList_append, List.append_assoc]
  rfl

theorem versionPath_of_prefix {i j : Uuid} {m n : Nat}
    (h : (versionPath i m).toList <+: (versionPath j n).toList) : i = j ∧ m = n := by
  rw [toList_versionPath, toList_versionPath, List.prefix_append_right_inj] at h
  have hslash : ∀ u : Uuid, '/' ∉ u.text.toList := fun u => Uuid.not_mem_text (by decide)
  obtain ⟨htext, h⟩ := segment_of_prefix (hslash i) (hslash j) h
  rw [List.prefix_append_right_inj] at h
  obtain ⟨hnumber, -⟩ :=
    segment_of_prefix (not_mem_toString (by decide) m) (not_mem_toString (by decide) n) h
  exact ⟨Uuid.text_injective (String.toList_inj.mp htext),
    toString_injective (String.toList_inj.mp hnumber)⟩

/-- An object lies under the path of one version only. -/
theorem versionPath_unique {i j : Uuid} {m n : Nat} {name : String}
    (hi : UnderPrefix (versionPath i m) name) (hj : UnderPrefix (versionPath j n) name) :
    i = j ∧ m = n := by
  rcases List.prefix_or_prefix_of_prefix hi hj with h | h
  · exact versionPath_of_prefix h
  · obtain ⟨hid, hnumber⟩ := versionPath_of_prefix h
    exact ⟨hid.symm, hnumber.symm⟩

theorem not_under_contribution {id contributionId : Uuid} {number : Nat} {name : String}
    (h : UnderPrefix (versionPath id number) name) :
    ¬ UnderPrefix (contributionPath contributionId) name := by
  intro hcontribution
  have hfirst : "skills/".toList <+: name.toList := by
    unfold UnderPrefix versionPath at h
    simp only [String.toList_append, List.append_assoc] at h
    exact (List.prefix_append "skills/".toList _).trans h
  have hsecond : "skill-contributions/".toList <+: name.toList := by
    unfold UnderPrefix contributionPath at hcontribution
    simp only [String.toList_append, List.append_assoc] at hcontribution
    exact (List.prefix_append "skill-contributions/".toList _).trans hcontribution
  rcases List.prefix_or_prefix_of_prefix hfirst hsecond with h | h
  · exact absurd h (by decide +kernel)
  · exact absurd h (by decide +kernel)

theorem folder_versionPath (id : Uuid) (number : Nat) :
    folder (versionPath id number) = versionPath id number := by
  rw [folder, if_pos]
  rw [versionPath, String.toList_append]
  exact List.suffix_append _ _

end Paths

/-- No two versions of a skill share a number. -/
def Numbered (versions : Table SkillVersion) : Prop :=
  (versions.map fun v => (v.skillId, v.versionNumber)).Nodup

instance (versions : Table SkillVersion) : Decidable (Numbered versions) :=
  inferInstanceAs (Decidable (List.Nodup _))

/-- The number the next version will take is free. -/
def NextFree (versions : Table SkillVersion) (skill : Skill) : Prop :=
  ∀ version ∈ versions, version.skillId = skill.id →
    version.versionNumber ≠ skill.currentVersion + 1

instance (versions : Table SkillVersion) (skill : Skill) : Decidable (NextFree versions skill) :=
  inferInstanceAs (Decidable (∀ version ∈ versions, _))

section Invariant

structure Sound (world : World) : Prop where
  skills : world.skills.Keyed
  versions : world.versions.Keyed
  numbered : Numbered world.versions
  owned : ∀ version ∈ world.versions, ∃ skill, world.skills.get version.skillId = some skill
  placed : ∀ version ∈ world.versions, ∀ path, version.storagePath = some path →
    UnderPrefix (versionPath version.skillId version.versionNumber) path
  jobs : ∀ job ∈ world.jobs, ∃ version, world.versions.get job.versionId = some version ∧
    version.skillId = job.skillId

variable {world : World}

theorem Numbered.eq {versions : Table SkillVersion} (h : Numbered versions)
    {v v' : SkillVersion} (hv : v ∈ versions) (hv' : v' ∈ versions)
    (hskill : v.skillId = v'.skillId) (hnumber : v.versionNumber = v'.versionNumber) : v = v' :=
  List.inj_on_of_nodup_map h hv hv' (Prod.ext hskill hnumber)

/-- Neither the objects nor the contributions are part of the invariant. -/
theorem Sound.congr {world' : World} (h : Sound world) (hskills : world'.skills = world.skills)
    (hversions : world'.versions = world.versions) (hjobs : world'.jobs = world.jobs) :
    Sound world' where
  skills := hskills ▸ h.skills
  versions := hversions ▸ h.versions
  numbered := hversions ▸ h.numbered
  owned := by
    rw [hversions, hskills]
    exact h.owned
  placed := hversions ▸ h.placed
  jobs := by
    rw [hversions, hjobs]
    exact h.jobs

theorem Sound.setSkills (h : Sound world) {skills : Table Skill}
    (hkeys : skills.map Row.key = world.skills.map Row.key) :
    Sound { world with skills } where
  skills := by
    have hkeyed : (world.skills.map Row.key).Nodup := h.skills
    rwa [← hkeys] at hkeyed
  versions := h.versions
  numbered := h.numbered
  owned version hversion := by
    obtain ⟨skill, hget⟩ := h.owned version hversion
    exact Table.get_of_keys hkeys.symm hget
  placed := h.placed
  jobs := h.jobs

theorem Sound.addSkill (h : Sound world) {skill : Skill}
    (hnew : world.skills.get skill.id = none) :
    Sound { world with skills := world.skills ++ [skill] } where
  skills := h.skills.append hnew
  versions := h.versions
  numbered := h.numbered
  owned version hversion := by
    obtain ⟨found, hget⟩ := h.owned version hversion
    exact ⟨found, Table.get_append_of_some hget⟩
  placed := h.placed
  jobs := h.jobs

theorem Sound.addVersion (h : Sound world) {row : SkillVersion} {skill : Skill}
    (hnew : world.versions.get row.id = none) (hskill : world.skills.get row.skillId = some skill)
    (hfree : ∀ version ∈ world.versions, version.skillId = row.skillId →
      version.versionNumber ≠ row.versionNumber)
    (hpath : ∀ path, row.storagePath = some path →
      UnderPrefix (versionPath row.skillId row.versionNumber) path) :
    Sound { world with versions := world.versions ++ [row] } where
  skills := h.skills
  versions := h.versions.append hnew
  numbered := by
    rw [Numbered, List.map_append, List.nodup_append]
    refine ⟨h.numbered, List.nodup_singleton _, ?_⟩
    intro pair hpair other hother heq
    obtain ⟨version, hversion, rfl⟩ := List.mem_map.mp hpair
    rw [List.map_singleton, List.mem_singleton] at hother
    rw [hother] at heq
    exact hfree version hversion (congrArg Prod.fst heq) (congrArg Prod.snd heq)
  owned version hversion := by
    rcases List.mem_append.mp hversion with hold | hrow
    · exact h.owned version hold
    · rw [List.mem_singleton.mp hrow]
      exact ⟨skill, hskill⟩
  placed version hversion := by
    rcases List.mem_append.mp hversion with hold | hrow
    · exact h.placed version hold
    · rw [List.mem_singleton.mp hrow]
      exact hpath
  jobs job hjob := by
    obtain ⟨version, hget, hskill⟩ := h.jobs job hjob
    exact ⟨version, Table.get_append_of_some hget, hskill⟩

theorem Sound.addJob (h : Sound world) {job : IngestJob} {version : SkillVersion}
    (hget : world.versions.get job.versionId = some version)
    (hskill : version.skillId = job.skillId) :
    Sound { world with jobs := world.jobs ++ [job] } where
  skills := h.skills
  versions := h.versions
  numbered := h.numbered
  owned := h.owned
  placed := h.placed
  jobs other hother := by
    rcases List.mem_append.mp hother with hold | hnew
    · exact h.jobs other hold
    · rw [List.mem_singleton.mp hnew]
      exact ⟨version, hget, hskill⟩

theorem Sound.discard (h : Sound world) {job : IngestJob} (hjob : job ∈ world.jobs) :
    Sound (world.discard job) where
  skills := h.skills
  versions := h.versions
  numbered := h.numbered
  owned := h.owned
  placed := h.placed
  jobs other hother := by
    rcases Table.mem_put hother with hnew | ⟨hold, -⟩
    · rw [hnew]
      exact h.jobs job hjob
    · exact h.jobs other hold

/-- A version that has been unpacked keeps its skill and its number. -/
theorem Sound.putVersion (h : Sound world) {row version : SkillVersion}
    (hget : world.versions.get row.id = some version) (hskill : row.skillId = version.skillId)
    (hnumber : row.versionNumber = version.versionNumber)
    (hpath : ∀ path, row.storagePath = some path →
      UnderPrefix (versionPath row.skillId row.versionNumber) path) :
    Sound { world with versions := world.versions.put row } where
  skills := h.skills
  versions := h.versions.put row
  numbered := by
    have hsame : (world.versions.put row).map (fun v => (v.skillId, v.versionNumber)) =
        world.versions.map fun v => (v.skillId, v.versionNumber) := by
      rw [Table.put, List.map_map]
      apply List.map_congr_left
      intro other hother
      by_cases hkey : Row.key other = Row.key row
      · have hfound : world.versions.get row.id = some other := by
          have := h.versions.get_of_mem hother
          rwa [hkey] at this
        rw [hget, Option.some.injEq] at hfound
        subst hfound
        simp [hkey, hskill, hnumber]
      · simp [hkey]
    rw [Numbered, hsame]
    exact h.numbered
  owned other hother := by
    rcases Table.mem_put hother with hnew | ⟨hold, -⟩
    · rw [hnew, hskill]
      exact h.owned version (Table.get_mem hget)
    · exact h.owned other hold
  placed other hother := by
    rcases Table.mem_put hother with hnew | ⟨hold, -⟩
    · rw [hnew]
      exact hpath
    · exact h.placed other hold
  jobs job hjob := by
    obtain ⟨found, hfound, howner⟩ := h.jobs job hjob
    by_cases hid : row.id = job.versionId
    · refine ⟨row, ?_, ?_⟩
      · have hput := Table.get_put row world.versions job.versionId
        rwa [hfound, Option.map_some, if_pos (show Row.key row = job.versionId from hid)] at hput
      · rw [← hid, hget, Option.some.injEq] at hfound
        rw [hskill, hfound, howner]
    · refine ⟨found, ?_, howner⟩
      have hput := Table.get_put row world.versions job.versionId
      rwa [if_neg (show ¬ Row.key row = job.versionId from hid), hfound] at hput

end Invariant

end Cygnus.Skills
