/-!
# The first configuration

The text of a configuration to begin with. It sets what is standard anyway.
-/

namespace Triage

/-- The lines of the first configuration. -/
def templateLines : List String :=
  ["# vigil configuration",
    "# Flags and environment variables override these values.",
    "",
    "[repository]",
    "# url = \"https://github.com/owner/project.git\"  # Or --repo-url / REPO_URL",
    "download_path = \"./cloned_repo\"",
    "",
    "[openai]",
    "# api_key = \"sk-...\"  # Or --api-key / OPENAI_API_KEY",
    "model = \"gpt-4o\"",
    "timeout_secs = 300",
    "max_retries = 0",
    "# max_tokens = 4096",
    "# temperature = 0.2",
    "",
    "[scan]",
    "extensions = [\"py\"]",
    "respect_gitignore = false",
    "route_attributes = [\"route\"]  # e.g. [\"get\", \"post\", \"put\", \"delete\"] for FastAPI",
    "",
    "[report]",
    "path = \"outputs/analysis_report.json\"",
    "",
    "# [logging]",
    "# dir = \"logs\"  # Daily log files, relative to .vigil/",
    ""]

def template : String := "\n".intercalate templateLines

end Triage
