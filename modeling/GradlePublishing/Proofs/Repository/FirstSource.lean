import GradlePublishing.Proofs.Repository.Failures
import GradlePublishing.Proofs.Repository.FirstKey
import GradlePublishing.Proofs.Repository.Footprint

/-!
The first source that has a repository decides a deployment, and what lies behind it does not show
(`first_source_decides`).
-/

namespace GradlePublishing.Repository

/-- A deployment in a valid directory ends like its first source that does not end in an absence. A URL
that cannot be resolved is the end wherever the deployment comes to it. Another tree with the same answers
to what the deployment asks leads to the same end, and it asks for nothing behind the source that decides.
Under the usual settings and with plain paths nothing can fail before the sources. -/
theorem first_source_decides (settings : Settings) (tree : FileTree) (request : Request)
    (valid : checkDirectory tree request.directory = .ok ()) :
    (deployment settings tree request = do
      let plan ← request.plan settings tree
      match plan.decisive? with
      | some source => source.outcome plan.search
      | none => .error (.noDeployRepository request.directory)) ∧
    (∀ plan stop url script, request.plan settings tree = .ok plan → plan.ComesTo stop →
      plan.search.verdict stop = .error (.unresolvedUrl url script) →
      deployment settings tree request = .error (.unresolvedUrl url script)) ∧
    (∀ other : FileTree, other.current = tree.current →
      (∀ query ∈ (askDeployment settings request).asked tree, query.Agrees tree other) →
      deployment settings other request = deployment settings tree request) ∧
    (∀ plan earlier source later, request.plan settings tree = .ok plan →
      plan.sources = earlier ++ source :: later →
      (∀ other ∈ earlier, isAbsent (other.outcome plan.search) = true) →
      isAbsent (source.outcome plan.search) = false →
      (askDeployment settings request).asked tree ⊆
        askedUpTo settings request plan.search tree earlier source) ∧
    (settings = Settings.packaged → request.HasPlainPaths →
      ∃ plan, request.plan settings tree = .ok plan) := by
  refine ⟨?_, ?_, ?_, ?_, ?_⟩
  · rw [deployment_eq, valid]
    rfl
  · intro plan stop url script planned comes ends
    exact deployment_of_comesTo valid planned comes ends rfl
  · intro other same agrees
    rw [← result_askDeployment, ← result_askDeployment]
    exact (askDeployment settings request).determined same agrees
  · intro plan earlier source later planned sources absent present query member
    exact mem_askedUpTo valid planned sources absent present member
  · intro usual plain
    rw [usual]
    exact exists_ok_of_failsOnly (failsOnly_plan_packaged tree plain)

/-! A build script with a key, and two settings scripts behind it. -/

def firstTree : FileTree :=
  ⟨⟨false, []⟩,
    [(["build.gradle"], .file (Search.publishing "http://h/artifactory/libs" "").toBytes),
      (["settings.gradle"], .file (Text.toBytes "include \"a\"\n"))]⟩

def secondTree : FileTree :=
  ⟨⟨false, []⟩,
    [(["settings.gradle"], .file (Search.publishing "http://h/artifactory/other" "").toBytes),
      (["init.gradle"], .file []),
      (["build.gradle"], .file (Search.publishing "http://h/artifactory/libs" "").toBytes)]⟩

def firstRequest : Request := { directory := "/", version := "1" }

theorem first_source_decides_over_settings :
    checkDirectory firstTree firstRequest.directory = .ok () ∧
      secondTree.readText "/settings.gradle" ≠ firstTree.readText "/settings.gradle" ∧
      deployment Settings.empty firstTree firstRequest =
        .ok ⟨"libs", .script "/build.gradle"⟩ ∧
      deployment Settings.empty secondTree firstRequest =
        deployment Settings.empty firstTree firstRequest := by
  have valid : checkDirectory firstTree firstRequest.directory = .ok () := by decide +kernel
  have agrees : ∀ query ∈ (askDeployment Settings.empty firstRequest).asked firstTree,
      query.Agrees firstTree secondTree := by
    decide +kernel
  have differs : secondTree.readText "/settings.gradle" ≠ firstTree.readText "/settings.gradle" := by
    decide +kernel
  have deployed : deployment Settings.empty firstTree firstRequest =
      .ok ⟨"libs", .script "/build.gradle"⟩ := by
    decide +kernel
  have same := (first_source_decides Settings.empty firstTree firstRequest valid).2.2.1 secondTree rfl
  exact ⟨valid, differs, deployed, same agrees⟩

end GradlePublishing.Repository
