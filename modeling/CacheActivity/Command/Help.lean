import CacheActivity.Display.Line

/-!
# Help

What the program says about itself.
-/

namespace CacheActivity.Command

open Display (Line)

def versionLine : Line := "cachelytics 0.1.0".toList

def helpLines : List Line :=
  ["Cache hits, cached tokens and cache health of an LLM gateway", "",
    "Usage: cachelytics [OPTIONS] [COMMAND]", "", "Commands:",
    "  activity  Show cache activity by call type (default)",
    "  facets    List API keys, models and call types present in the data",
    "  health    Show cache backend health",
    "  export    Write series and summary as comma-separated values",
    "  watch     Show cache activity again and again",
    "  config    Show or change the settings",
    "  help      Show this help", "", "Options:",
    "  -s, --since <DATE>  First date of the window (YYYYMMDD or YYYY-MM-DD)",
    "  -u, --until <DATE>  Last date of the window (YYYYMMDD or YYYY-MM-DD)",
    "  -p, --path <PATH>   Captured activity: a .json or .jsonl file, or a folder of these",
    "  -j, --json          Show JSON",
    "  -t, --today         Only the activity of today",
    "  -h, --help          Show this help",
    "  -V, --version       Show the version", "", "Options of activity and export:",
    "  --api-key <KEY>     Only this API key (repeatable)",
    "  --model <MODEL>     Only this model (repeatable)", "", "Options of activity:",
    "  --classic           The table only", "", "Options of export:",
    "  --series            Only the series",
    "  --summary           Only the summary",
    "  -o, --output <PATH> Base path of the files, without an extension", "",
    "Options of health:",
    "  --response <FILE>   Captured response of a health check",
    "  --error <TEXT>      Message of a health check that failed",
    "  --fail-on-error     Fail when the check failed", "", "Options of config:",
    "  --show              List all settings",
    "  --reset             Set every setting to its default",
    "  --set-path <PATH>   Set the path of captured activity"].map String.toList

end CacheActivity.Command
