/-!
# The script of a page

`Page.scriptLines` is the script that keeps a page working after it is opened: it expands and
collapses folders, selects items and filters, by the classes that the page is written with.
-/

namespace EntryReport.Page

/-- The script with its tags. -/
def scriptLines : List String :=
  ["<script>",
    "(function()\x7b",
    "\"use strict\";",
    "",
    "/* ── helpers ── */",
    "const $=s=>document.querySelector(s);",
    "const $$=(s,root)=>[...(root||document).querySelectorAll(s)];",
    "",
    "/* ── folders ── */",
    "function toggleFolder(caret)\x7b",
    "  const nested=caret.parentElement.querySelector('.nested');",
    "  if(nested) nested.classList.toggle('active');",
    "  caret.classList.toggle('caret-down');",
    "\x7d",
    "",
    "/* ── description panels ── */",
    "function selectDescription(id,item)\x7b",
    "  for(const panel of $$('.description'))\x7b",
    "    panel.style.display=panel.id===id?'':'none';",
    "  \x7d",
    "  for(const el of $$('.item'))\x7b",
    "    el.style.background='';",
    "    el.style.color='';",
    "  \x7d",
    "  item.style.background=HIGHLIGHT.background;",
    "  item.style.color=HIGHLIGHT.foreground;",
    "\x7d",
    "",
    "/* ── filter ── */",
    "function applyFilter()\x7b",
    "  const warn=$('#WarnCheckBox').checked;",
    "  const err=$('#ErrCheckBox').checked;",
    "  const search=$('#SearchInputBox').value.trim().toLowerCase();",
    "  const active=warn||err||search!=='';",
    "  for(const folder of $$('.container, .root'))\x7b",
    "    const items=$$('.item',folder);",
    "    let found=false;",
    "    for(const item of items)\x7b",
    "      const ok=!active||(",
    "        (!warn||item.classList.contains('haswarn'))&&",
    "        (!err||item.classList.contains('haserr'))&&",
    "        (search===''||item.textContent.toLowerCase().includes(search)));",
    "      item.parentElement.classList.toggle('filterHider',!ok);",
    "      if(ok) found=true;",
    "    \x7d",
    "    const show=items.length?(!active||found):(!active&&!HIDE_EMPTY);",
    "    folder.classList.toggle('filterHider',!show);",
    "  \x7d",
    "\x7d",
    "",
    "/* ── events ── */",
    "document.addEventListener('click',e=>\x7b",
    "  const caret=e.target.closest('.caret');",
    "  if(caret)\x7btoggleFolder(caret);return\x7d",
    "  const item=e.target.closest('.item');",
    "  if(item) selectDescription(item.dataset.description,item);",
    "\x7d);",
    "$('#WarnCheckBox').addEventListener('change',applyFilter);",
    "$('#ErrCheckBox').addEventListener('change',applyFilter);",
    "$('#SearchInputBox').addEventListener('input',applyFilter);",
    "",
    "\x7d)();",
    "</script>"]

end EntryReport.Page
