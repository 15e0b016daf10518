import SyncGrammar.Unicode.Ranges

/-!
Properties of characters by name: the general categories, the scripts, and some properties that a
character has or has not. The tables are written as texts. Each range of code points is given by the
number of code points between the range before and itself, and by the number of those that follow
its first. Numbers have the base 32 with the least digit in front; a small letter, `0`, `1`, `8`,
`9`, a plus or a minus sign is the last digit of its number.
-/
namespace SyncGrammar.Unicode

def categoryTables : List (String × List String) := [
  ("Cc Control Cntrl", ["a-7cAb"]),
  ("Cf Format", ["NfaSKbfwaAgaRbaAmbQcaLZda47be0eRbebjPUXbaZhcBGeapaC3ipADCbdPGfhGULya+7c"]),
  ("Co Private_Use", ["AAYb7HgAYB8577bc577b"]),
  ("Ll Lowercase_Letter", ["Bdz2baJbxbhbabababababababababababababababababababababababababababb",
    "babababababababbbababababababababababababababababababababababacababccabacadbeacadccacababa",
    "cabbbacadabacbccgacacababababababababbbababababababababbcabadababababababababababababababa",
    "bababababababababababababababgcacbbaeababababEcb0Bgabadadcsa1Cbbbdcbababababababababababab",
    "ebacacbTbPbbababababababababababababababababajabababababababababababababababababababababab",
    "ababababacababababababbbababababababababababababababababababababababababababababababababab",
    "ababababababababababababababaQbIbH2cKbccYxfCEciXdLb7bmbBbGdabababababababababababababababa",
    "bababababababababababababababababababababababababababababababababababababababababababababa",
    "babababababababababababababibababababababababababababababababababababababababababababababa",
    "babababababababababababababababababiifkhihifkhihinchihihiebbgadcbbidcbihkcbbSiadbda1aeaeac",
    "bideaVbaLVcPbbadbbababaeabbbffabababababababababababababababababababababababababababababab",
    "abababababababababababababababababababbhabaeamFbbafaTI+abababababababababababababababababa",
    "bababababatabababababababababababababaHeababababababcbabababababababababababababababababab",
    "abababababababababababababhbabacababababaeabacabcbabababababababababafafabababababababaeab",
    "agababababa8adaVzKbfihPcA2tgmeJBbzNGbHbIeDb3ekbobgbbDYbSbN6c-AMv-2Mzz0gbr0z0dbabgbk0z0z0z0",
    "z0z0z0z0z018ybf0ybf0ybf0ybf0ybfbaUZbjbtgfXPcBb"]),
  ("Lm Modifier_Letter", ["QvreloehabaFeafa6oaGhaEfbNibea-ajadaAfaHfaUGba7daVra2WbaLdaDtaQofOf6",
    "bnaCbEbRvanaqm76cbRha7faVoaLbefaBdb5ccWY1aCHbfOiaSda8bZdiQcaxaJdcdbVoawaJeaMdavbHddjaGAvaN",
    "bbA7bfbJbbiF4ydPCbmAcbbaMAqdbgbbRBm5bJggN9a7Cba"]),
  ("Lo Other_Letter", ["KfapaAiaedQga3z0edNb-bjDbbbCdbaybkccaqab99YclayAbvvKbyhkfxbfrIb3bVbdasa",
    "hjqoehcbcvbgbadddaqanbbcobkaifebcvbgbbbbbb-dbatcqibcbvbgbbbedasapbxalhcbcvbgbbbeda+bbcpara",
    "bfdcbddbbabbdbdcdlwaUbhbcbwbpda0ccacb+aehbcbwbjbeda-bbbpbribcbIbcaqafcicyffrdxbibacg2bPbbb",
    "mf3bbbabebxbabjbbjacexdAba7bhbDb1eTdKbuaqfeddadbhcemmaRdIkbdcgbabdcIbbdcAbbdcgbabdcobYbbdc",
    "CcFbpRdLtcqbzfKcghhrnsorombcpTbIbaDcCbbUbhecBbbafFck+Rb9celLbezWbwjUbQfObrhWb9nbkLb0DbJbck",
    "9Rddbfbbda2BbdX7cXbywjgbgbgbgbgbgbgbgHraVbaeVciabZceafKbb5cr-QbpAq7NgAcUQubWDbDcHbiLiepkbC",
    "caRbFcJfaHdadgbcbdbw9TboRb6bfdabbl1kwz8hObNbecikebIbxcbhupbfdadRbbadbcecabaybdkhaofcfcfjgb",
    "gReCb9D5kmweQbEIiNlcJdDcabjbmbebabbbbbLdBbKls7bcVbIblUdebGeJdjbMbc+dfcfcfccDblbzbsbbbocnCb",
    "2dFm8dQbPb-ntbhgFbk9cDbehAeNcCdHbiTb4eWjjvkhYefcabLbbbdacwkwj+BcsbbkvkzGcXbgbAcapdbcb8Kb8d",
    "8Dbhb11VbkvksnrOdIcXfDb4kJbgbOc8kaivKbrObu1wmUbZbbcanMbAby0Db9acaiCbdamPbodvabaDbrbytb7bgb",
    "abdbobjhObGbhcbcvbgbbbedasame6eUbsduc+PbubbaYfObJbdEbPbua3bKbnaHc0FbgZfLbTghcachbbbxpaba6c",
    "hcGbqaba8akHbhavalNbtasIcHiibEbraRb9QdgbbbFbvazfbbb-oaHkspabmbBb4daPcZ8GhDgMScAdpPBbrfZ5dG",
    "sZNiYrh+rOcr9sPbTbufsQ1KcfaPfX7fiVGbKbiXXiCjpa9ccaodiLmEIcKdfmdihjQTiaVpMbBbaBk9sLbEp0Vxgb",
    "dbbbobEg3Jbdb0bbbacabjbdbabagaeabababcbbbacabababababbbacdbgbdbdbabjbqfcbebqEKe7WJbAbZBeg5",
    "gcBUfoQJh7Ad5qCPbK2ef7Ce"]),
  ("Lt Titlecase_Letter", ["FoacacaGbaVMhhihihmapaPba"]),
  ("Lu Uppercase_Letter", ["BczFdwbgBbabababababababababababababababababababababababababababaca",
    "bababababababacabababababababababababababababababababababababbbabadbbabbbccdbbbcdbbbbababb",
    "bacabbbcbabbdahacacacabababababababacababababababababacacabcbababababababababababababababa",
    "babababababababababababababahbbbcabdbabababaBjabadaiagabcbabbbqbiDbaccdabababababababababa",
    "babafacabbcSbQbababababababababababababababababajababababababababababababababababababababa",
    "bababababababbbabababababacabababababababababababababababababababababababababababababababa",
    "babababababababababababababababacFbJ2cFbbafaSwVc2EcKbccAkababababababababababababababababa",
    "bababababababababababababababababababababababababababababababababababababababababababababa",
    "bababababababababababababajabababababababababababababababababababababababababababababababa",
    "bababababababababababababababababajhifkhihiflabababaihIcdmdmdmeldGiaeadccccadegabababdcdkb",
    "fa5ba4TcPbQbabccabababdbacaicbabababababababababababababababababababababababababababababab",
    "ababababababababababababababababababaiabaeaNK+abababababababababababababababababababababab",
    "atabababababababababababababaHeababababababadababababababababababababababababababababababa",
    "babababababababakababbbabababaeabacabadababababababababababebebabababababababdbagafaba8aLZ",
    "vzFGbHbIeDb4ekbobgbbKXbSbN7c-AMv-ANzz0z0z0abbcacbcdbh0z0bbdchbg1bbdbebadg1z0z0z0z0z0z+yBby",
    "BbyBbyBbyBbaVJeBb"]),
  ("Mc Spacing_Mark", ["DIcaXbaccidbbSbb2bcgbcbkaLba2bcCca2bciabbVbb2babagbcbkaGdbbbdcbckaJbc5b",
    "d5bb2babecbbbjb8aob2bcfcbckaKbbLccghsbKkb7baLfbeagacbzbkccgvbcfcakcYTba+aBeahhbb2kdccebbfA",
    "hb2babajabbifReaQbafabebb5ba+aebca4baccbadbQbhibLfavaWZebT79bcaYcbSbpOebPbaQbbebccOdbcbyaN",
    "babaNdacbfaNhbbbbbbaTAzaba7daNbcebTdayb3baQbcjbna5ccdbbaKfc-b2bbbdcbccjakbRgcibdaKdcgabdca",
    "NhcgdcaRdcibbaNdabbgaJdbeaFicjaXhfbbeacabaOecideaUca9b6baXmaoaKdahacaVgeebba6kbmaQbbibbaPA",
    "uWbIdbTLybgf"]),
  ("Me Enclosing_Mark", ["IEbbURfa6QbdbcLMBbc"]),
  ("Mn Nonspacing_Mark", ["AyPdTieJiMbbabbbbbaIckQbuqaFdgcfcbbdDba+03ck2bijaydbibcbeLbc4bhKbxb-",
    "Xbabaeheadgkb9a2baediaub0acbZbaebebccda+bdalbZbaeebbeaubwfba2bacabdiahblb+a5bamaSbadaXbabc",
    "fcbdhblb9a2bacagafbub8bZbbediaub9aIcahcba2cacgmhCdacilgJcb1ababaXbnbebbfkbDbjaGddbfbbcbzbe",
    "cqdnacbgapa7vcS9c9b+b+bAcbbgiackjaNbcbaVdbCbaWdcebjagc3gbca2babgbabachgjcaQbnbpRbdQbabebaf",
    "aIbimbAbdcbbcYbabbdabc2bhcbYecbmbgeagadbGg7bQwmeadl67ccNeaAd-KrdLdbUO9aejAbbQcbQiadaeazbfa",
    "Xeb0rnaGbhzkObcQbacdcbHbaDcfcbcbmaiaPbaTbabccbfbbaKbbiaOhacaeaQZtaBxpqpN+aChaVeeGUbcbbfdIb",
    "ceaFfb5rdDmbQccGckRbd3daWboJbacbkcRbdcbha5bcEbebh6bambUbikdca7cccabbgaca5eadhvbZbbdaFbgdeD",
    "ghccbaxaUcfbaebbbOhdgbbb1bVchcabbKdabacfbaFdccdbeDiibbAibbaeaQedcbeaAbjIbfcdiajfccObmbbWmg",
    "bfbaScvcgbbbb2dfdabbbgbaIcbdaba3kblbUbefaba5Hfago2Une3bgYAba7bdRcaYFtbBTeNbcwArcrhcg+dUec3",
    "5bWbeRbiaoaweboQKbgbqcgbbbeEdaAfgXla5bd4pdA-gNdgV5FyPh"]),
  ("Nd Decimal_Number Digit", ["QbjGRbjGejGgj4mjWdjWdjWdjWdjWdjWdjWdjWdjWdjAdjWdjGcjWijGcjG2bjG",
    "bjMjjAejGfjgjWfjWcjGejgjGOCbjGvjGbjGgjwjWcjWmjWYujGMbjGEcjMzjAej4bjQejWijWkjWdjWljGdjGdjGn",
    "jGdjWxjWhjGcjGnjGYsjWcjGejUD1RbAKcjGnjWpjWCbjWUej"]),
  ("Nl Letter_Number", ["OXfcPTcCbcd6TdaziocLV9jQSwUbMoaiaGeeKBiOd"]),
  ("No Other_Number", ["SfbfaccVJcfYlfYdcFegZggriRnjVBbtTDbjApaVUbadfgjGgpJbaWw3bOcvWt9JLbaUEbd",
    "Kej+hboAbjHboQL9fRGwMbBcdrbVk0EbdUJbhzgHbiLcewfAfbcpcNbAciUbb+cLceIdhyhJbgKkfAl+6ejKbdQdgG",
    "et3ltFKbbOniH1sT0uG4sg6ywJBztmtMdyOKfiB92bbcbdMcMbboC+m"]),
  ("Pc Connector_Punctuation", ["7ca76hbta6OXbbycPha"]),
  ("Pd Dash_Punctuation", ["Nba4KbaTbaBSdaFAbaJAcfBQdaca-bea8a6nataPdaQMTbbFbakaJfa74da"]),
  ("Pe Close_Punctuation", ["JbaTba-a5Vdaba62baJNcaXbapa2taba+a6BbababababababaQcaAbababababaUm",
    "ababababababababababaAcabaBbaFBbabababaMbabababaMnababababadabababacb6ITbaZga9abababababab",
    "abadarababaKfaTba-acaca"]),
  ("Pf Final_Punctuation", ["3fa52hada8aIOdabaeacapada"]),
  ("Pi Initial_Punctuation", ["LfaM3hacbcazaIOdabaeacapada"]),
  ("Po Other_Punctuation", ["Bbcbccababbkbdb1aEcafaobha6vaiaSofJbaWbacacaMbbubbbnabcKcdGdaLbnJh",
    "cWbo-aFibkaMeaYdaZdaGmamaPla2cakbIfobaQdaKceebPdfLfaEtiFya4dcHcb5ecbcFbfbdZjbYgbAegbfMfg8b",
    "5dd3be6bbAchlaC0bihiicdccdkbabj2EddbbQdaPebeccacibbbacbkebjcdbabmccMncZba5faCA9bNicDdakaTd",
    "f4ldWcbIbcbaRbbPbaBdmqb4dd6dbqbZhaERugcawaubcddcbdhcgabbVecbccababbkbdb1aEbacb2mc4uaQba6ma",
    "HxaHga-aQiiGbaQdgCcgZcdY9eMbd5fgNdbbd6ddQbbPcdeanabcYcfLdaBnekbbaIda2hwJdc8mMcaCec4haIic3e",
    "a4chTccbe5cjXjeKbbFubKcmPfaQDbe43cb3TobFeaBceiaS0dHka4FtaHPheSWdb"]),
  ("Ps Open_Punctuation", ["IbaSba-a6Vdaba62ba6LcadaGbaXbapa2taba+a6BbababababababaQcaAbabababa",
    "baUmababababababababababaAcabaBbaFBbabababazasabababaMnababababadabababacaBJTbaXga9abababa",
    "babababadarababaKfaSba-adaca"]),
  ("Sc Currency_Symbol", ["Eba5ddJHba3daSpbSpbhaVhaHiaFsa3McaEGcAbX3BbaDOvaMda2ea3gbdbW7hd6YQba",
    "QNca"]),
  ("Sk Modifier_Symbol", ["6cabaHcagaeadaJqdmnfgbabqVdaobCIbaUZfabclcncncnb4EebDT9wjbHdbQ+aobGC",
    "uq31abaCfaXA5be"]),
  ("Sm Math_Symbol", ["Lbaqc5babaNbaeaFba-a6xaPqc3RganaHbcncLeaHbegaEcefbeacacaha-bcaba-LiAbb2c",
    "a+yIbfVoajaWbhPdaQkec+kpAiCew6be-cBiQbucf46TbaYzabcEfaqc5babaDeagdUWVbaza-aza-aza-aza-azaM",
    "Zfb"]),
  ("So Other_Symbol", ["GfacaeabaR+aKib7dbOgakatbXhaDqaVlaCefbaEeaPgaJbaHmcpabccfuababaFehbfbbf",
    "dFgbQxjTwaSwa5eBbBljjiDMbbbdbbkabbgfbababaealboabbba2bbjecdbbbbbgb+cbbab+MihetcgcQcb9zHbgE",
    "czkRcNcwWfbibVbiOdbXhMbLbAc7hAqPbvbgGbc-bIdFhfFlbObzbYcmVg0lianbmavbgbQkbejAbDb8+l9iap-kGb",
    "p7jAOg7bQUvWbB1dkbba5rcGWup7daNbcEpadaebnbZjiZbqccbmdaPbMb2TbbPsaWDdaVEcheqK2sdfaWKuaTVeTd",
    "4bVhkGbc3bfcwbh9e4bvBcda2fWcJFb7pXbdSbhbnbbIWba42caBeaRwLbeDdmocobobEbxAfYb8nLbeihbof2e2hf",
    "XweqdmdWde6cgleapleXbijgHbi9cbOcTkmncmdihNbbgineihihSebWb"]),
  ("Zl Line_Separator", ["IBia"]),
  ("Zp Paragraph_Separator", ["JBia"]),
  ("Zs Space_Separator", ["Aba7da7Ofa7LckEbaPbaA5da"])]

def scriptTables : List (String × List String) := [
  ("Adlm Adlam", ["AI2dLcejeb"]),
  ("Aghb Caucasian_Albanian", ["QJBcTbla"]),
  ("Ahom", ["AYFc0coew"]),
  ("Arab Arabic", ["AQbebfbnbcb-bjlzbLdbBbQcPbQh+bbgJcb8QS4bSdqKlcPccVbhaAbpQdebGeD3d+6dcAYXbdb",
    "0bbbacabjbdbabagaeabababcbbbacabababababbbacdbgbdbdbabjbqfcbebqUbb"]),
  ("Armi Imperial_Aramaic", ["ACCcvbi"]),
  ("Armn Armenian", ["RJbFbcRbccDM5be"]),
  ("Avst Avestan", ["AYCcVbdg"]),
  ("Bali Balinese", ["AYgMcdOb"]),
  ("Bamu Bamum", ["AVJbXcIIQbYr"]),
  ("Bass Bassa_Vah", ["QW2c9cf"]),
  ("Batk Batak", ["A6gTbid"]),
  ("Beng Bengali", ["AMcdbhcbcvbgbaddcicbcdiaebbecy"]),
  ("Bhks Bhaiksuki", ["AAHcibMbbnk8"]),
  ("Bopo Bopomofo", ["KxbZQlKbQd-"]),
  ("Brah Brahmi", ["AAEcNceDbja"]),
  ("Brai Braille", ["AAk7h"]),
  ("Bugi Buginese", ["AQg1cb"]),
  ("Buhd Buhid", ["A2ft"]),
  ("Cakm Chakma", ["AIEcUbbr"]),
  ("Cans Canadian_Aboriginal", ["AAf7tQrFc2NAcp"]),
  ("Cari Carian", ["AVAcQb"]),
  ("Cham", ["AQKbWbjncjcd"]),
  ("Cher Cherokee", ["A5eVccfS3FbPc"]),
  ("Chrs Chorasmian", ["Q5Dc1"]),
  ("Copt Coptic Qaac", ["C-nQEkTdfg"]),
  ("Cpmn Cypro_Minoan", ["Q4LcCd"]),
  ("Cprt Cypriot", ["AACcfcabLbbbdaca"]),
  ("Cyrl Cyrillic", ["AAbEecIfQ2fiCfaMcaHDe-AC+7cO4vbAQYb5bBba"]),
  ("Deva Devanagari", ["AIcQceoczA3Hb-AQ8j"]),
  ("Diak Dives_Akuru", ["AIGcgcachbbb9bbcljj"]),
  ("Dogr Dogra", ["AAGc3b"]),
  ("Dsrt Deseret", ["AABcPc"]),
  ("Dupl Duployan", ["AAPdKdfmdihjcd"]),
  ("Egyp Egyptian_Hieroglyphs", ["AAMcVCb"]),
  ("Elba Elbasan", ["AIBcHb"]),
  ("Elym Elymaic", ["A7Dcw"]),
  ("Ethi Ethiopic", ["AQeIcbdcgbabdcIbbdcAbbdcgbabdcobYbbdcCcc-dzGPgwjgbgbgbgbgbgbgbgCJ-fcfcfjg",
    "bgRFPcgbdbbbo"]),
  ("Geor Georgian", ["AFeFbbafacKbbdQ4cKbccACeFbbafa"]),
  ("Glag Glagolitic", ["AAl7cA5Mdgbqcgbbbe"]),
  ("Gong Gunjala_Gondi", ["ALHcfbbbEbbbbfhj"]),
  ("Gonm Masaram_Gondi", ["AIHcgbbbLbdabbbiij"]),
  ("Goth Gothic", ["QZAc0"]),
  ("Gran Grantha", ["AYEcdbhcbcvbgbbbecicbcccagafgcgde"]),
  ("Grek Greek", ["Q1dbccdbaeababcbabtb6bopGJgeSbeeeUcaAkvcfcFbcfchbababab+cUbbobncfbsccbiHja6R",
    "Cba2OvOcra7CUbFc"]),
  ("Gujr Gujarati", ["BUccbibcbvbgbbbecjbcbccapdclhg"]),
  ("Guru Gurmukhi", ["BQccbfebcvbgbbbbbbcabeebccdahdbahq"]),
  ("Hang Hangul", ["AIe7hORhbBi5cRd+Bc+BX98DuD5kmweQbE5j+dfcfcfcc"]),
  ("Hani Han", ["AUlzbYcmVgPbabaziodE+7NgAc7PuAIwNlcJdII9bmbOAEb7WJbAbZBeg5gcBUfoQJh7Ad5qCPbK2e",
    "f7Ce"]),
  ("Hano Hanunoo", ["AZfu"]),
  ("Hatr Hatran", ["AHCcsbbfe"]),
  ("Hebr Hebrew", ["RMbWbi0efIJ5bzbebabbbbbj"]),
  ("Hira Hiragana", ["BCmVcgcB37c6isa9cNFqa"]),
  ("Hluw Anatolian_Hieroglyphs", ["AARcGs"]),
  ("Hmng Pahawh_Hmong", ["AY2cFckjbgbufs"]),
  ("Hmnp Nyiakeng_Puachue_Hmong", ["AIYdMbdncjeb"]),
  ("Hung Old_Hungarian", ["AEDcSbnSbhf"]),
  ("Ital Old_Italic", ["AYAcDbjc"]),
  ("Java Javanese", ["AMKbNccjeb"]),
  ("Kali Kayah_Li", ["AIKbNbba"]),
  ("Kana Katakana", ["BFmZcccQhpQgObbXcOATbjbMbSCMbdbgbbba7icSbaod"]),
  ("Kawi", ["AYHcqbIbd1"]),
  ("Khar Kharoshthi", ["AQCcdbbfhbcb8ccejhi"]),
  ("Khmr Khmer", ["A4f5ccjgjGp-"]),
  ("Khoj Khojki", ["AQEcrbOb"]),
  ("Kits Khitan_Small_Script", ["E73ca3YgVo"]),
  ("Knda Kannada", ["AEdmbcbwbjbecibcbdhbgbbdcjbc"]),
  ("Kthi Kaithi", ["AEEcCcka"]),
  ("Lana Tai_Tham", ["ARg6bb8ckgjgn"]),
  ("Laoo Lao", ["BUdbbabebxbabwcebabgbjcd"]),
  ("Latn Latin", ["BczgzPbapafwb+bAoHbe3QgFbgQbfdfmbFcBc7hRlanaqmNebga1arIbXWc-CV+Fdd7bfbbabeyn",
    "QzKbbibdW4tg2AbzgzFBcfbJbbiF2Vb+gf"]),
  ("Lepc Lepcha", ["AAhXbdodc"]),
  ("Limb Limbu", ["AIg+bleleadl"]),
  ("Lina Linear_A", ["AQBcWjjvkh"]),
  ("Linb Linear_B", ["AAAclbzbsbbbocnCb2d"]),
  ("Lisu", ["QGJbPbQV+a"]),
  ("Lyci Lycian", ["AUAc8"]),
  ("Lydi Lydian", ["AJCczfa"]),
  ("Mahj Mahajani", ["QKEcGb"]),
  ("Maka Makasar", ["AXHcy"]),
  ("Mand Mandaic", ["ACc1ca"]),
  ("Mani Manichaean", ["AWCcGbel"]),
  ("Marc Marchen", ["QDHc-cvbn"]),
  ("Medf Medefaidrin", ["AS3c2c"]),
  ("Mend Mende_Kikakui", ["AA2dEgcp"]),
  ("Merc Meroitic_Cursive", ["ANCcxetcNb"]),
  ("Mero Meroitic_Hieroglyphs", ["AMCc-"]),
  ("Mlym Malayalam", ["AIdmbcbSbbcbfepcz"]),
  ("Modi", ["AQFcEclj"]),
  ("Mong Mongolian", ["AAgbcabtgYchKbVN7bm"]),
  ("Mroo Mro", ["AS2c+bjeb"]),
  ("Mtei Meetei_Mayek", ["AXKbwJgNbcj"]),
  ("Mult Multani", ["AUEcgbabdbobk"]),
  ("Mymr Myanmar", ["AAe7eAKGb+Bd-"]),
  ("Nagm Nag_Mundari", ["QGZdJb"]),
  ("Nand Nandinagari", ["ANGchcNbck"]),
  ("Narb Old_North_Arabian", ["AUCc-"]),
  ("Nbat Nabataean", ["AECc+ii"]),
  ("Newa", ["AAFc3cbe"]),
  ("Nkoo Nko", ["A6b2bcc"]),
  ("Nshu Nushu", ["B73caOMqLm"]),
  ("Ogam Ogham", ["AUf8"]),
  ("Olck Ol_Chiki", ["QChPb"]),
  ("Orkh Old_Turkic", ["AADcIc"]),
  ("Orya Oriya", ["BYccbhcbcvbgbbbecicbcchcebbecr"]),
  ("Osge Osage", ["QFBcDbeDb"]),
  ("Osma Osmanya", ["AEBc9cj"]),
  ("Ougr Old_Uyghur", ["Q3Dcz"]),
  ("Palm Palmyrene", ["ADCc-"]),
  ("Pauc Pau_Cin_Hau", ["AWGcYb"]),
  ("Perm Old_Permic", ["Q2AcKb"]),
  ("Phag Phags_Pa", ["ACKbXb"]),
  ("Phli Inscriptional_Pahlavi", ["A3Ccsfh"]),
  ("Phlp Psalter_Pahlavi", ["A4Ccrhdmg"]),
  ("Phnx Phoenician", ["AICc1da"]),
  ("Plrd Miao", ["AY3cKceYbhq"]),
  ("Prti Inscriptional_Parthian", ["A2Ccvch"]),
  ("Rjng Rejang", ["QJKbDbla"]),
  ("Rohg Hanifi_Rohingya", ["AIDcHbij"]),
  ("Runr Runic", ["AVfKcdk"]),
  ("Samr Samaritan", ["AAcNbco"]),
  ("Sarb Old_South_Arabian", ["ATCc-"]),
  ("Saur Saurashtra", ["AEKbFcil"]),
  ("Sgnw SignWriting", ["AAWdLupebo"]),
  ("Shaw Shavian", ["QCBcPb"]),
  ("Shrd Sharada", ["AMEc7c"]),
  ("Sidd Siddham", ["AMFcVbcFb"]),
  ("Sind Khudawadi", ["QVEc2bfj"]),
  ("Sinh Sinhala", ["BMdcbrdxbibacgdaefbabhgjccM7Act"]),
  ("Sogd Sogdian", ["QZDcJb"]),
  ("Sogo Old_Sogdian", ["AYDcHb"]),
  ("Sora Sora_Sompeng", ["QGEcyhj"]),
  ("Soyo Soyombo", ["QSGcSc"]),
  ("Sund Sundanese", ["A4g7bAih"]),
  ("Sylo Syloti_Nagri", ["AAKbMb"]),
  ("Syrc Syriac", ["AYbnb3bccQik"]),
  ("Tagb Tagbanwa", ["A3fmbcbb"]),
  ("Takr Takri", ["AUFcZbgj"]),
  ("Tale Tai_Le", ["QKg9ce"]),
  ("Talu New_Tai_Lue", ["AMgLbezgkdb"]),
  ("Taml Tamil", ["C4cbbfdcbddbbabbdbdcdleedcbdcagaouF6EcRbna"]),
  ("Tang Tangut", ["A73ca-X7fi7xAqi"]),
  ("Tavt Tai_Viet", ["AUKbCcye"]),
  ("Telu Telugu", ["AAdmbcbwbpcibcbdhbbccacdcjhi"]),
  ("Tfng Tifinagh", ["QJlXbhboa"]),
  ("Tglg Tagalog", ["AYfvja"]),
  ("Thaa Thaana", ["A4bRb"]),
  ("Thai", ["BQdZbf1"]),
  ("Tibt Tibetan", ["AYdHcbDbeGbbDbbobgeb"]),
  ("Tirh Tirhuta", ["AEFcHcij"]),
  ("Tnsa Tangsa", ["QT2cOcbj"]),
  ("Toto", ["QUYd+"]),
  ("Ugar Ugaritic", ["A4Ac9ba"]),
  ("Vaii Vai", ["AIJbLj"]),
  ("Vith Vithkuqi", ["QLBckbobgbbbkbobgbb"]),
  ("Wara Warang_Citi", ["AFGcScma"]),
  ("Wcho Wancho", ["AWYdZbfa"]),
  ("Xpeo Old_Persian", ["A5AcDben"]),
  ("Xsux Cuneiform", ["AAIcZ8GdOdbelDg"]),
  ("Yezi Yezidi", ["AUDcJbbccb"]),
  ("Yiii Yi", ["AAIbMEbdWb"]),
  ("Zanb Zanabazar_Square", ["AQGcHc"]),
  ("Zinh Inherited Qaai", ["AyPdVibEok0aAxd3Ke+BqcbmbgeagadbGg7bMqbCgAbZZddLdbFLTbpqnP+aCha2Cea",
    "E6ObNbcwArcrhcg+dS2LyPh"]),
  ("Zyyy Common", ["aAc0f0Obbobexa-aBoGbfectUdajagaba5tagaoadaAba4eaEqaBebZGbaVmdCjaPPbcHcbLgbb",
    "aNGbanahdbfbccaFylcWcbkdkborAb7bFbbccfb0bqJbceWuzkv78AiTtc-bIdAq5cSmleebabyphed3cbda2cbTep",
    "AbDb4b7b-QcPbaYcHfAOg7bAIwBbGdcFfjUhaAfaLmaobSOubQgjwCbbsbdTeab-0f0kkaNbbAcgbgkeCiceMbdiQc",
    "mTbMbEh0ENObdMVeTd4bVhkGbc5bdqibh9e4bVgtmtmWcjyHeUcbGcbbcacbcdblbabgbAcbdchbgb1bdbebadgbTk",
    "cDjcRbRDfDcMc4bCwLbeDdmocobobEbkNfYbzbbnLbeihbof2eX+eqdmdWde6cgleapleXbijgHbi9cbOcTkmncmdi",
    "hNbbgineihihSebWbFbjHABya+7c"])]

def propertyTables : List (String × List String) := [
  ("Alpha Alphabetic", ["BczgzPbakaeafwb+bJoeloehabaWcaKbebbcdbagabcbabtbScbKeiFfbFbcagIbHbnbab",
    "bbbbai0ed9kfXbbgoFdbheheckccaqPbnEdyAbjbeafxcstyhkfxbfrJbkldggLcbpbceonsbhcbcvbgbadddhcbcb",
    "baiaebbembkaecbfebcvbgbbbbbbeeebcbeahdbarflcbibcbvbgbbbedibcbbdapdvdecbhcbcvbgbbbedhcbcbjb",
    "ebbenaqbbfdcbddbbabbdbdcdleedcbcdagaIbmbcbwbpdhbcbcibbccacd8dbhbcbwbjbedhbcbcibgbbdncmmbcb",
    "IbchbcbcbafdhewfbcbrdxbibacgifbabhsbnZbfggaTbbbabebxbabsbccebagaodAba7bhbDbesepbDbDcWbbace",
    "q7bkdcFbbafacKbbMkbdcgbabdcIbbdcAbbdcgbabdcobYbbdcCcFbpqVccfdLtcqbzfKcdkhtlumtmmbcbbmTbcso",
    "aeaDcYchKbfFck+bleix9celLbezWb1e6bctSbaxblcRbTbbobhTbJbcdkLbbkoWbwckDbcihKbccJbdbfbbdaf7fH",
    "bnlVicfcFbcfchbababab+cUbbgbadcbgddcfemfcbgUdanaqmFdaeacjbadegabababdbkcdfeearIbNzTbWYbEhg",
    "ddbmFbbafacXbhaqwjgbgbgbgbgbgbgbgb-PbaVocziheceeVcgcbZcbdfKbb5cr-QbpAq7NgAcMUvDcNbcMidpkbu",
    "ObfhdQdHbicGdc7bfbbabeytbAbyTbmDcbaMbfdabckAbfCbn8dSbblpaqpkebWbjnswdEcbabayccpcdlfcfcfjgb",
    "gbKbbng2dvD5kmweQbEIiNlcJdGbgmeflbmbebabbbbbLdBbKls7bcVbIblUdebGeEbzgzlYcdfcfcfccDblbzbsbb",
    "bocnCb2dFcUbLi8dQbPb-n9fKbf9cDbehbeKb5esDbeDbeHbiTbmkbobgbbbkbobgbbDcWjjvkhyfbJbbiFcfcabLb",
    "bbdacwkwj+BcsbbkvkzGcXbgbAcdbbfhbcb8Kb8d8Dbhb11VbkvksnrOdIcXbSbnSbnHbYkJbbbdbOc8kaivKbrObu",
    "1wjFcLbekYbjanyxSbrdiCbdaj7bbdjbkabaDbrbBbcagd6bgbabdbobjhYbxdbhcbcvbgbbbedhcbcbdagafg4eBc",
    "bcbduc+BccbbaYfVbcgzfCb6bbada3bVbcaHc0cnvgZfYbHd7b-hcachbbb9bbcbcd5chcNbcfbabb1SbcjrHcfasI",
    "cHiibMbbgbaRb9cvbnJcgbbbLbdabbbcbacbyfbbbEbbbbdbaHkwjqbIbdcPdaPcZ8GdOdrDgMScAdpPBbrfZ5dGsZ",
    "NiYrh+rOcr9sPbqd-ufsQv7bAeKceYbhqAcbbamboX7fiVGbKbiHXidbgbbbCjpa9ccaodiLmEIcKdfmdihjeaB3fU",
    "cbGcbbcacbcdblbabgbAcbdchbgb1bdbebadgbTkcybyb+byb+byb+byb+bybhUZb+gfVggbqcgbbbef5bBbaQdMbk",
    "gqaBk9sLbEp1UxgbdbbbobEg3bDcdadaUFbdb0bbbacabjbdbabagaeabababcbbbacabababababbbacdbgbdbdba",
    "bjbqfcbebqUtzgzgzWTd7WJbAbZBeg5gcBUfoQJh7Ad5qCPbK2ef7Ce"]),
  ("AHex ASCII_Hex_Digit", ["Qbjhf0f"]),
  ("Dash", ["Nba4KbaTbaBSdaFAbaJAcf5baHbapaGmaEAdaca-bea8a6nataPdaQMTbbFbakaJfa74da"]),
  ("Hex Hex_Digit", ["Qbjhf0fJV7bjhf0f"]),
  ("Lower Lowercase", ["BdzPbakaeaEbxbhbabababababababababababababababababababababababababababb",
    "babababababababbbababababababababababababababababababababababacababccabacadbeacadccacababa",
    "cabbbacadabacbccgacacababababababababbbababababababababbcabadababababababababababababababa",
    "bababababababababababababababgcacbbaeababababEcbDbhb+eAdaLbabadacdsa1Cbbbdcbababababababab",
    "ababababebacacbTbPbbababababababababababababababababajabababababababababababababababababab",
    "ababababababababacababababababbbababababababababababababababababababababababababababababab",
    "ababababababababababababababababababaQbIbH2cKbbdYxfCEciXd7fBcababababababababababababababa",
    "bababababababababababababababababababababababababababababababababababababababababababababa",
    "bababababababababababababababibabababababababababababababababababababababababababababababa",
    "bababababababababababababababababababiifkhihifkhihinchihihiebbgadcbbidcbihkcbbZdanaqmNdadb",
    "da1aeaeacbideaBbpeaL0zG2bPbbadbbababaeabbbhdababababababababababababababababababababababab",
    "ababababababababababababababababababababababababababbhabaeamFbbafaTI+ababababababababababa",
    "babababababababababababatabababababababababababababcFeababababababcbababababababababababab",
    "abababababababababababababababababababjbabacababababaeabacabcbabababababababababafafababab",
    "ababababaeabagababababaycbabcVzKbbngPcA2tgmeJBbzNGbHbIeDb3ekbobgbbDoaccbJbbiFIbSbN6c-AMv-2",
    "Mzz0gbr0z0dbabgbk0z0z0z0z0z0z0z0z018ybf0ybf0ybf0ybf0ybfbaUZbjbtgfFi5bUFcBb"]),
  ("Math", ["Lbaqc-a9abaNbaeaFba-aYwcca0bccPqcNQga1cladanaodveleBcmeadbeesaeacjbacfgadbcbbcbfdn",
    "baEcxbfbbebe-bagboLiidub2ca+0bayalg5nbmjefebcbdeoabacflhfbZbaba9djcQk7bAi7pQbucf46TbaXzfba",
    "Cfaqc9aba9abaDeagdTAVbUcbGcbbcacbcdblbabgbAcbdchbgb1bdbebadgbTkcDjcRbAQfdb0bbbacabjbdbabag",
    "aeabababcbbbacabababababbbacdbgbdbdbabjbqfcbebqUbb"]),
  ("Upper Uppercase", ["BczFdwbgBbabababababababababababababababababababababababababababacababa",
    "bababababacabababababababababababababababababababababababbbabadbbabbbccdbbbcdbbbbababbbaca",
    "bbbcbabbdahacacacabababababababacababababababababacacabcbababababababababababababababababa",
    "babababababababababababahbbbcabdbabababaBjabadaiagabcbabbbqbiDbaccdabababababababababababa",
    "facabbcSbQbababababababababababababababababajababababababababababababababababababababababa",
    "bababababbbabababababacabababababababababababababababababababababababababababababababababa",
    "babababababababababababababacFbJ2cFbbafaSwVc2EcKbccAkababababababababababababababababababa",
    "bababababababababababababababababababababababababababababababababababababababababababababa",
    "bababababababababababajabababababababababababababababababababababababababababababababababa",
    "bababababababababababababababajhifkhihiflabababaihIcdmdmdmeldGiaeadccccadegabababdcdkbfa0p",
    "taSzzQZbPbQbabccabababdbacaicbabababababababababababababababababababababababababababababab",
    "ababababababababababababababababababaiabaeaNK+abababababababababababababababababababababab",
    "atabababababababababababababaHeababababababadababababababababababababababababababababababa",
    "babababababababakababbbabababaeabacabadababababababababababebebabababababababdbagafaba8aLZ",
    "vzFGbHbIeDb4ekbobgbbKXbSbN7c-AMv-ANzz0z0z0abbcacbcdbh0z0bbdchbg1bbdbebadg1z0z0z0z0z0z+yBby",
    "BbyBbyBbyBbaVJeBbOAczgzgz"]),
  ("WSpace White_Space Space", ["jesaEda0a7Ofa7Lck9bfaPbaA5da"])]

/-- The value of a digit, and whether a number ends with it. -/
def tableDigit (c : Char) : Nat × Bool :=
  if 'a' ≤ c ∧ c ≤ 'z' then (c.toNat - 'a'.toNat, true)
  else if 'A' ≤ c ∧ c ≤ 'Z' then (c.toNat - 'A'.toNat, false)
  else if '2' ≤ c ∧ c ≤ '7' then (c.toNat - '2'.toNat + 26, false)
  else (['0', '1', '8', '9', '+', '-'].idxOf c + 26, true)

def tableNumbers (weight value : Nat) : Text → List Nat
  | [] => []
  | c :: rest =>
    let (digit, ends) := tableDigit c
    let value := value + weight * digit
    if ends then value :: tableNumbers 1 0 rest else tableNumbers (weight * 32) value rest

def tableRanges (start : Nat) : List Nat → List (Nat × Nat)
  | gap :: more :: rest =>
    let first := start + gap
    (first, first + more) :: tableRanges (first + more + 1) rest
  | _ => []

def ranges (table : List String) : List (Nat × Nat) :=
  tableRanges 0 (tableNumbers 1 0 (table.flatMap String.toList))

def combinedCategories : List (String × List String) := [
  ("L Letter", ["Lu", "Ll", "Lt", "Lm", "Lo"]), ("LC Cased_Letter", ["Lu", "Ll", "Lt"]),
  ("M Mark Combining_Mark", ["Mn", "Mc", "Me"]), ("N Number", ["Nd", "Nl", "No"]),
  ("P Punctuation Punct", ["Pc", "Pd", "Ps", "Pe", "Pi", "Pf", "Po"]),
  ("S Symbol", ["Sm", "Sc", "Sk", "So"]), ("Z Separator", ["Zs", "Zl", "Zp"])]

/-- A name as it is looked up: case, blanks, hyphens, low lines and a leading `is` do not count. -/
def plainName (name : Text) : Text :=
  match (name.filter fun c => c ∉ ['-', '_', ' ']).map Char.toLower with
  | 'i' :: 's' :: rest => rest
  | plain => plain

def isListed (name : Text) (listed : String) : Bool :=
  ((listed.splitOn " ").map fun other => plainName other.toList).contains (plainName name)

def rangesOf (tables : List (String × List String)) (chosen : String → Bool) :
    List (List (Nat × Nat)) :=
  (tables.filter fun row => chosen row.1).map fun row => ranges row.2

def category? (name : Text) : Option (List (List (Nat × Nat))) :=
  match combinedCategories.find? fun row => isListed name row.1 with
  | some (_, parts) =>
    some (rangesOf categoryTables fun names => parts.any fun part => names.startsWith part)
  | none =>
    match rangesOf categoryTables (isListed name) with
    | [] => none
    | found => some found

def script? (name : Text) : Option (List (List (Nat × Nat))) :=
  match rangesOf scriptTables (isListed name) with
  | [] => none
  | found => some found

def property? (name : Text) : Option (List (List (Nat × Nat))) :=
  match rangesOf propertyTables (isListed name) with
  | [] => none
  | found => some found

end SyncGrammar.Unicode
