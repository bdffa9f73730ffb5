/-!
# The style sheet of a page

`Page.styleLines` is the style sheet that every page carries, line by line.
-/

namespace EntryReport.Page

/-- The style sheet with its tags. -/
def styleLines : List String :=
  ["<style>",
    ":root\x7b--bg:#0d0d11;--surface:#16161b;--border:#2a2a32;--text:#e4e4e7;" ++
      "--muted:#71717a;--yellow:#eab308;--red:#ef4444;--blue:#3b82f6;--radius:8px\x7d",
    "*\x7bbox-sizing:border-box;margin:0;padding:0\x7d",
    "body\x7b" ++
      "font-family:-apple-system,BlinkMacSystemFont,'Segoe UI',Roboto,Oxygen,sans-serif;" ++
      "background:var(--bg);color:var(--text);line-height:1.5;min-height:100vh\x7d",
    "",
    "/* ── Layout ── */",
    ".shell\x7bdisplay:grid;grid-template-columns:minmax(0,1fr) minmax(0,1.4fr);" ++
      "grid-template-rows:auto auto 1fr;min-height:100vh\x7d",
    "@media(max-width:960px)\x7b.shell\x7bgrid-template-columns:1fr\x7d\x7d",
    "header\x7bgrid-column:1/-1;padding:1.25rem 1.5rem;" ++
      "border-bottom:1px solid var(--border);display:flex;align-items:center;gap:1.5rem;" ++
      "flex-wrap:wrap\x7d",
    "header h1\x7bfont-size:1.125rem;font-weight:700\x7d",
    "header .meta\x7bfont-size:.8125rem;color:var(--muted)\x7d",
    ".controls\x7bgrid-column:1/-1;padding:1rem 1.5rem;" ++
      "border-bottom:1px solid var(--border);display:flex;gap:1rem;align-items:center;" ++
      "font-size:.8125rem\x7d",
    ".search\x7bbackground:var(--surface);border:1px solid var(--border);" ++
      "border-radius:var(--radius);padding:.5rem .75rem;color:var(--text);width:220px;" ++
      "outline:none\x7d",
    ".search:focus\x7bborder-color:var(--blue)\x7d",
    ".main\x7bpadding:1rem 1.5rem;overflow-y:auto\x7d",
    ".sidebar\x7bborder-left:1px solid var(--border);padding:1rem 1.25rem;" ++
      "overflow-y:auto;background:var(--surface)\x7d",
    "",
    "/* ── Tree ── */",
    "ul.tree,ul.nested\x7blist-style:none\x7d",
    "ul.nested\x7bpadding-left:1.25rem;display:none\x7d",
    "ul.nested.active\x7bdisplay:block\x7d",
    ".caret\x7bcursor:pointer;user-select:none;font-weight:600\x7d",
    ".caret::before\x7bcontent:\"\\25B6\";color:var(--muted);display:inline-block;" ++
      "margin-right:6px;font-size:.625rem;transition:transform .2s\x7d",
    ".caret-down::before\x7btransform:rotate(90deg)\x7d",
    ".item\x7bcursor:pointer;padding:1px 6px;border-radius:4px\x7d",
    ".item.haswarn\x7bcolor:var(--yellow)\x7d",
    ".item.haserr\x7bcolor:var(--red)\x7d",
    ".filterHider\x7bdisplay:none\x7d",
    "",
    "/* ── Description panels ── */",
    ".description h3\x7bfont-size:1rem;margin-bottom:.5rem\x7d",
    ".description h4\x7bfont-size:.8125rem;margin:.75rem 0 .25rem;color:var(--muted);" ++
      "text-transform:uppercase\x7d",
    ".description dl\x7bdisplay:grid;grid-template-columns:auto 1fr;gap:.25rem .75rem;" ++
      "margin-top:.75rem;font-size:.8125rem\x7d",
    ".description dt\x7bcolor:var(--muted)\x7d",
    ".table\x7bwidth:100%;border-collapse:collapse;font-size:.8125rem\x7d",
    ".table th,.table td\x7btext-align:left;padding:.35rem .5rem;" ++
      "border-bottom:1px solid var(--border)\x7d",
    ".code\x7bfont-family:'SF Mono',Consolas,monospace;white-space:pre-wrap;" ++
      "margin-top:.5rem;font-size:.75rem\x7d",
    ".warn,.c-warn\x7bcolor:var(--yellow)\x7d",
    ".err,.c-err\x7bcolor:var(--red)\x7d",
    "</style>"]

end EntryReport.Page
