import Roster.Schema.Basic

/-!
# The schema of a recruiting office

Jobs have owners and applications, an application belongs to a job and a
candidate. Users are only ever included with jobs.
-/

namespace Roster.Registry

/-- Open and closed positions. -/
def jobs : Entity where
  name := "jobs"
  table := "jobs"
  fields := [⟨"id", "id", .uuid⟩, ⟨"title", "title", .text⟩, ⟨"description", "description", .text⟩,
    ⟨"department", "department", .text⟩, ⟨"location", "location", .text⟩,
    ⟨"status", "status", .text⟩, ⟨"salaryMin", "salary_min", .integer⟩,
    ⟨"salaryMax", "salary_max", .integer⟩, ⟨"ownerId", "owner_id", .uuid⟩,
    ⟨"createdAt", "created_at", .timestamp⟩]
  relations := [⟨"owner", "users", "ownerId", "id", true⟩,
    ⟨"applications", "applications", "id", "jobId", false⟩]
  listable := true

/-- Applications of candidates for jobs. -/
def applications : Entity where
  name := "applications"
  table := "applications"
  fields := [⟨"id", "id", .uuid⟩, ⟨"jobId", "job_id", .uuid⟩,
    ⟨"candidateId", "candidate_id", .uuid⟩, ⟨"status", "status", .text⟩,
    ⟨"score", "score", .decimal⟩, ⟨"reviewNotes", "review_notes", .text⟩,
    ⟨"createdAt", "created_at", .timestamp⟩]
  relations := [⟨"job", "jobs", "jobId", "id", true⟩,
    ⟨"candidate", "candidates", "candidateId", "id", true⟩]
  listable := true

/-- People who apply. -/
def candidates : Entity where
  name := "candidates"
  table := "candidates"
  fields := [⟨"id", "id", .uuid⟩, ⟨"firstName", "first_name", .text⟩,
    ⟨"lastName", "last_name", .text⟩, ⟨"email", "email", .text⟩, ⟨"phone", "phone", .text⟩,
    ⟨"createdAt", "created_at", .timestamp⟩]
  relations := [⟨"applications", "applications", "id", "candidateId", false⟩]
  listable := true

/-- People who work at the office. -/
def users : Entity where
  name := "users"
  table := "users"
  fields := [⟨"id", "id", .uuid⟩, ⟨"name", "name", .text⟩, ⟨"email", "email", .text⟩,
    ⟨"role", "role", .text⟩]
  relations := []
  listable := false

/-- The four entities of the office. -/
def recruiting : Registry := ofEntities [jobs, applications, candidates, users]

end Roster.Registry
